import GraphCalc.Proofs.Token.Tiling

/-!
# Tokens on both sides of a line end

A line end outside brackets cuts a text.  The tokens in front of it are those of
the text in front of it alone, and the tokens behind it are those of the text
behind it, moved down.
-/

namespace GraphCalc

/-! ## Moving down -/

/-- Where a place of a text is when a text that ends a line is put in front. -/
def Position.below (front : List Char) (place : Position) : Position :=
  ⟨place.offset + front.length, place.line + front.count '\n', place.column⟩

def Token.below (front : List Char) (token : Token) : Token :=
  { token with start := token.start.below front }

def Cursor.below (front : List Char) (cursor : Cursor) : Cursor :=
  { cursor with place := cursor.place.below front }

namespace Position

theorem step_below (front : List Char) (place : Position) (char : Char) :
    (place.below front).step char = (place.step char).below front := by
  unfold step below
  split
  · simp only [Int.add_right_comm]
  · simp only [Int.add_right_comm]

theorem advance_below (front : List Char) (place : Position) (text : List Char) :
    (place.below front).advance text = (place.advance text).below front := by
  induction text generalizing place with
  | nil => rfl
  | cons char text ih =>
      unfold advance at ih ⊢
      rw [List.foldl_cons, List.foldl_cons, step_below, ih]

theorem right_below (front : List Char) (place : Position) (width : Nat) :
    (place.below front).right width = (place.right width).below front := by
  simp only [right, below, Int.add_right_comm]

/-- Behind a text that ends a line, another one starts as far down as it is
moved. -/
theorem start_below (upper : List Char) :
    start.below (upper ++ ['\n']) = behind (upper ++ ['\n']) := by
  have newLine : (upper ++ ['\n']).reverse.takeWhile (· ≠ '\n') = [] := by simp
  unfold start below behind
  rw [newLine, Int.zero_add]
  rfl

theorem advance_append (place : Position) (front back : List Char) :
    place.advance (front ++ back) = (place.advance front).advance back :=
  List.foldl_append

end Position

namespace Cursor

theorem next_below (front : List Char) (cursor : Cursor) :
    (cursor.below front).next = (cursor.next.1.below front, cursor.next.2.below front) := by
  unfold next below Token.below
  simp only [Position.advance_below]
  cases (spanLayout cursor.depth false cursor.rest).2 with
  | nil => rfl
  | cons first rest => rfl

/-- Tokens of a text read further down are moved down, and not changed. -/
theorem tokens_below (front : List Char) (cursor : Cursor) :
    (cursor.below front).tokens = cursor.tokens.map (Token.below front) := by
  rw [tokens, next_below]
  conv => rhs; rw [tokens]
  by_cases atEnd : cursor.next.1.kind = .eof
  · rw [if_pos atEnd]
    exact if_pos atEnd
  · have shorter := next_rest_lt cursor atEnd
    rw [if_neg atEnd, List.map_cons, ← tokens_below front cursor.next.2]
    exact if_neg atEnd
termination_by cursor.rest.length

/-! ## Layout in front of a line end -/

/-- Layout ends where it ended before, whatever is put behind the text. -/
theorem spanLayout_append_of_cons {depth : Nat} {inComment : Bool} {text rest : List Char}
    {first : Char} (more : List Char)
    (ahead : (spanLayout depth inComment text).2 = first :: rest) :
    spanLayout depth inComment (text ++ more) =
      ((spanLayout depth inComment text).1, first :: (rest ++ more)) := by
  induction text generalizing inComment with
  | nil => cases ahead
  | cons char text ih =>
      simp only [List.cons_append, spanLayout] at ahead ⊢
      by_cases isLineEnd : char = '\n'
      · by_cases outside : depth = 0
        · simp only [isLineEnd, outside, if_true] at ahead ⊢
          cases ahead
          rfl
        · simp only [isLineEnd, outside, if_true, if_false] at ahead ⊢
          rw [ih ahead]
      · simp only [isLineEnd, if_false] at ahead ⊢
        split at ahead
        · rename_i isComment
          rw [if_pos isComment, if_pos isComment, ih ahead]
        · rename_i noComment
          rw [if_neg noComment, if_neg noComment]
          split at ahead
          · rename_i isBlank
            rw [if_pos isBlank, if_pos isBlank, ih ahead]
          · rename_i noBlank
            rw [if_neg noBlank, if_neg noBlank]
            cases ahead
            rfl

/-- Layout up to the end of a text ends in front of a line end put behind. -/
theorem spanLayout_append_of_nil {inComment : Bool} {text : List Char} (more : List Char)
    (atEnd : (spanLayout 0 inComment text).2 = []) :
    spanLayout 0 inComment (text ++ '\n' :: more) = (text, '\n' :: more) := by
  induction text generalizing inComment with
  | nil => exact spanLayout_lineEnd_outside inComment more
  | cons char text ih =>
      simp only [List.cons_append, spanLayout] at atEnd ⊢
      by_cases isLineEnd : char = '\n'
      · simp [isLineEnd] at atEnd
      · simp only [isLineEnd, if_false] at atEnd ⊢
        split at atEnd
        · rename_i isComment
          rw [if_pos isComment, ih atEnd]
        · rename_i noComment
          rw [if_neg noComment]
          split at atEnd
          · rename_i isBlank
            rw [if_pos isBlank, ih atEnd]
          · cases atEnd

end Cursor

/-! ## Tokens in front of a line end -/

namespace Lexeme

/-- The same token in front of more text. -/
def before (lexeme : Lexeme) (more : List Char) : Lexeme :=
  { lexeme with rest := lexeme.rest ++ more }

theorem takeWhile_append_mark {test : Char → Bool} {mark : Char} (stops : test mark = false)
    (text more : List Char) :
    (text ++ mark :: more).takeWhile test = text.takeWhile test := by
  induction text with
  | nil => simp [stops]
  | cons char text ih =>
      cases passes : test char with
      | true => simp [passes, ih]
      | false => simp [passes]

theorem dropWhile_append_mark {test : Char → Bool} {mark : Char} (stops : test mark = false)
    (text more : List Char) :
    (text ++ mark :: more).dropWhile test = text.dropWhile test ++ mark :: more := by
  induction text with
  | nil => simp [stops]
  | cons char text ih =>
      cases passes : test char with
      | true => simp [passes, ih]
      | false => simp [passes]

theorem word_append_lineEnd (first : Char) (rest more : List Char) :
    word first (rest ++ '\n' :: more) = (word first rest).before ('\n' :: more) := by
  have stops : isLetterOrDigit '\n' = false := by decide
  unfold word
  rw [takeWhile_append_mark stops, dropWhile_append_mark stops]
  cases rest.dropWhile isLetterOrDigit with
  | nil => rfl
  | cons second after =>
      by_cases isMark : second = '!'
      · subst isMark
        cases after with
        | nil => rfl
        | cons third after =>
            by_cases isOpening : third = '('
            · subst isOpening
              rfl
            · simp [isOpening, before]
      · simp [isMark, before]

theorem numeral_append_lineEnd (first : Char) (rest more : List Char) :
    numeral first (rest ++ '\n' :: more) = (numeral first rest).before ('\n' :: more) := by
  have stops : Char.isDigit '\n' = false := by decide
  unfold numeral
  rw [takeWhile_append_mark stops, dropWhile_append_mark stops]
  cases rest.dropWhile Char.isDigit with
  | nil => rfl
  | cons point after =>
      by_cases isPoint : point = '.'
      · subst isPoint
        cases after with
        | nil => rfl
        | cons digit after =>
            simp only [List.cons_append]
            by_cases isDigit : digit.isDigit = true
            · rw [if_pos isDigit, if_pos isDigit, takeWhile_append_mark stops,
                dropWhile_append_mark stops]
              rfl
            · rw [if_neg isDigit, if_neg isDigit]
              rfl
      · simp [isPoint, before]

/-- A token ends at the latest in front of a line end. -/
theorem read_append_lineEnd (first : Char) (rest more : List Char) :
    read first (rest ++ '\n' :: more) = (read first rest).before ('\n' :: more) := by
  unfold read
  by_cases letter : isLetter first = true
  · rw [if_pos letter, if_pos letter]
    exact word_append_lineEnd first rest more
  · rw [if_neg letter, if_neg letter]
    by_cases digit : first.isDigit = true
    · rw [if_pos digit, if_pos digit]
      exact numeral_append_lineEnd first rest more
    · rw [if_neg digit, if_neg digit]
      cases withEquality? first with
      | none => rfl
      | some kind =>
          cases rest with
          | nil => rfl
          | cons second rest =>
              by_cases isEquality : second = '='
              · subst isEquality
                rfl
              · simp [isEquality, before]

end Lexeme

namespace Cursor

/-- The same cursor with more text behind what is ahead. -/
def before (cursor : Cursor) (more : List Char) : Cursor :=
  { cursor with rest := cursor.rest ++ more }

/-- A token in front of a line end is read as if the text ended there. -/
theorem next_before {cursor : Cursor} {first : Char} {rest : List Char}
    (ahead : (spanLayout cursor.depth false cursor.rest).2 = first :: rest) (more : List Char) :
    (cursor.before ('\n' :: more)).next =
      (cursor.next.1, cursor.next.2.before ('\n' :: more)) := by
  have layoutEq := spanLayout_append_of_cons ('\n' :: more) ahead
  unfold next before
  simp only [layoutEq, ahead, Lexeme.read_append_lineEnd]
  rfl

/-- At the end of what is ahead, the line end behind it is read. -/
theorem next_before_of_end {cursor : Cursor} (outside : cursor.depth = 0)
    (atEnd : (spanLayout cursor.depth false cursor.rest).2 = []) (more : List Char) :
    (cursor.before ('\n' :: more)).next =
      (⟨.newline, "\n", cursor.file, cursor.place.advance cursor.rest⟩,
        ⟨cursor.file, more, (cursor.place.advance cursor.rest).step '\n', 0⟩) := by
  rw [outside] at atEnd
  have layoutEq := spanLayout_append_of_nil more atEnd
  unfold next before
  simp only [outside, layoutEq]
  rfl

/-- The place behind a token and the text ahead of it lead to the end of the
text. -/
theorem advance_next {cursor : Cursor} {first : Char} {rest : List Char}
    (ahead : (spanLayout cursor.depth false cursor.rest).2 = first :: rest) :
    cursor.next.2.place.advance cursor.next.2.rest = cursor.place.advance cursor.rest := by
  have parts := spanLayout_append cursor.depth false cursor.rest
  rw [ahead] at parts
  rw [next_eq_of_read ahead, ← Position.advance_append, ← Position.advance_append,
    Lexeme.covered_append_rest, parts]

theorem tokens_ne_nil (cursor : Cursor) : cursor.tokens ≠ [] := by
  rw [tokens]
  split
  · exact List.cons_ne_nil _ _
  · exact List.cons_ne_nil _ _

/-- If the tokens ahead leave no bracket open, a line end behind them cuts the
text: it stands where the end mark stood, and reading starts anew behind it. -/
theorem tokens_before (cursor : Cursor) (more : List Char)
    (closed : depthBehind cursor.depth cursor.tokens = 0) :
    (cursor.before ('\n' :: more)).tokens =
      cursor.tokens.dropLast ++
        ⟨.newline, "\n", cursor.file, cursor.place.advance cursor.rest⟩ ::
          (Cursor.mk cursor.file more ((cursor.place.advance cursor.rest).step '\n') 0).tokens := by
  cases ahead : (spanLayout cursor.depth false cursor.rest).2 with
  | nil =>
      rw [tokens_of_end ahead] at closed ⊢
      have outside : cursor.depth = 0 := by
        rw [next_eq_of_end ahead] at closed
        exact closed
      have notEnd : Kind.newline ≠ Kind.eof := by decide
      rw [tokens, next_before_of_end outside ahead more]
      exact if_neg notEnd
  | cons first rest =>
      have notEnd := kind_next_ne_eof ahead
      have shorter := next_rest_lt cursor notEnd
      have stepped : (cursor.before ('\n' :: more)).tokens =
          cursor.next.1 :: (cursor.next.2.before ('\n' :: more)).tokens := by
        rw [tokens, next_before ahead more]
        exact if_neg notEnd
      have restClosed : depthBehind cursor.next.2.depth cursor.next.2.tokens = 0 := by
        rw [tokens_of_read ahead] at closed
        rw [next_eq_of_read ahead] at closed ⊢
        exact closed
      have rest := tokens_before cursor.next.2 more restClosed
      have sameFile : cursor.next.2.file = cursor.file := by
        rw [next_eq_of_read ahead]
      rw [advance_next ahead, sameFile] at rest
      rw [stepped, rest, tokens_of_read ahead, List.dropLast_cons_of_ne_nil (tokens_ne_nil _),
        List.cons_append]
termination_by cursor.rest.length

theorem takeWhile_ne_append {mark : Char} {front : List Char} (noMark : mark ∉ front)
    (back : List Char) :
    (front ++ back).takeWhile (· ≠ mark) = front ++ back.takeWhile (· ≠ mark) := by
  apply List.takeWhile_append_of_pos
  intro char isChar
  rw [decide_eq_true_iff]
  rintro rfl
  exact noMark isChar

theorem rest_ofText (file : String) {text : List Char} (noNul : '\x00' ∉ text) :
    (ofText file text).rest = text := by
  unfold ofText
  simpa using takeWhile_ne_append noNul []

theorem ofText_append_lineEnd (file : String) {upper : List Char} (lower : List Char)
    (noNul : '\x00' ∉ upper) :
    ofText file (upper ++ '\n' :: lower) =
      (ofText file upper).before ('\n' :: (ofText file lower).rest) := by
  unfold before
  rw [rest_ofText file noNul, ofText, takeWhile_ne_append noNul]
  rfl

/-- Only the last of the tokens ahead is an end mark. -/
theorem kind_ne_eof_of_mem_dropLast {file : String} {text : List Char} :
    ∀ token ∈ (ofText file text).tokens.dropLast, token.kind ≠ .eof := by
  rcases exists_tiled (ofText file text) [] rfl (Lexeme.seam_nil _) with ⟨tokens, tokensEq, tiled⟩
  rw [tokensEq, List.dropLast_concat]
  exact tiled.kind_ne_eof

end Cursor

/-- A line end outside brackets cuts a text into two: its tokens are those in
front of the line end, the line end itself, and those behind it, moved down. -/
theorem tokenize_append_lineEnd (file : String) {upper : List Char} (lower : List Char)
    (noNul : '\x00' ∉ upper) (closed : depthBehind 0 (tokenize file upper) = 0) :
    tokenize file (upper ++ '\n' :: lower) =
      (tokenize file upper).dropLast ++ ⟨.newline, "\n", file, .behind upper⟩ ::
        (tokenize file lower).map (Token.below (upper ++ ['\n'])) := by
  have upperEnds := Cursor.tokens_before (.ofText file upper) (Cursor.ofText file lower).rest closed
  have placed : (Cursor.ofText file upper).place.advance (Cursor.ofText file upper).rest =
      .behind upper := by
    rw [Cursor.rest_ofText file noNul]
    exact Position.advance_behind [] upper
  have lowerTokens := Cursor.tokens_below (upper ++ ['\n']) (.ofText file lower)
  rw [placed, Position.step_behind, ← Position.start_below] at upperEnds
  unfold tokenize
  rw [Cursor.ofText_append_lineEnd file lower noNul, upperEnds, ← lowerTokens]
  rfl

end GraphCalc
