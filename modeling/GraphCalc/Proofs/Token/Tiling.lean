import GraphCalc.Proofs.Token.Scan

/-!
# Tokens and layout tile the text

A text up to its first NUL is a sequence of tokens with layout in front of each
and behind the last.  Nothing is lost: the characters under a token are its
text, and all others are blanks, line ends inside brackets, or comments.  The
place of a token is found by counting the characters and line ends before it,
and no token could be longer where it stands.
-/

namespace GraphCalc

/-! ## Places -/

namespace Position

/-- The place behind a text: as many characters further as the text has, on the
line behind its line ends, and one column further than the characters behind
the last line end. -/
def behind (text : List Char) : Position :=
  ⟨text.length, 1 + text.count '\n', 1 + (text.reverse.takeWhile (· ≠ '\n')).length⟩

theorem step_behind (text : List Char) (char : Char) :
    (behind text).step char = behind (text ++ [char]) := by
  by_cases isLineEnd : char = '\n'
  · subst isLineEnd
    simp [step, behind, List.count_append, Int.add_assoc]
  · simp [step, behind, List.count_append, isLineEnd, Int.add_comm]

/-- Passing over a text leads from the place behind another to the place behind
both. -/
theorem advance_behind (before text : List Char) :
    (behind before).advance text = behind (before ++ text) := by
  induction text generalizing before with
  | nil =>
      rw [List.append_nil]
      rfl
  | cons char text ih =>
      rw [List.append_cons, ← ih, ← step_behind]
      rfl

end Position

/-! ## Layout -/

namespace Cursor

/-- The characters that are always layout. -/
def blanks : List Char :=
  [' ', '\t', '\r']

theorem spanLayout_lineEnd_outside (inComment : Bool) (rest : List Char) :
    spanLayout 0 inComment ('\n' :: rest) = ([], '\n' :: rest) := by
  simp [spanLayout]

theorem spanLayout_lineEnd_inside {depth : Nat} (inBrackets : 0 < depth) (inComment : Bool)
    (rest : List Char) :
    spanLayout depth inComment ('\n' :: rest) =
      ('\n' :: (spanLayout depth false rest).1, (spanLayout depth false rest).2) := by
  simp [spanLayout, Nat.ne_of_gt inBrackets]

theorem spanLayout_comment (depth : Nat) {inComment : Bool} {char : Char} (rest : List Char)
    (sameLine : char ≠ '\n') (isComment : inComment = true ∨ char = '#') :
    spanLayout depth inComment (char :: rest) =
      (char :: (spanLayout depth true rest).1, (spanLayout depth true rest).2) := by
  rcases isComment with rfl | rfl
  · simp [spanLayout, sameLine]
  · simp [spanLayout]

theorem spanLayout_blank (depth : Nat) {char : Char} (rest : List Char)
    (isBlank : char ∈ blanks) :
    spanLayout depth false (char :: rest) =
      (char :: (spanLayout depth false rest).1, (spanLayout depth false rest).2) := by
  simp only [blanks, List.mem_cons, List.not_mem_nil, or_false] at isBlank
  rcases isBlank with rfl | rfl | rfl
  · simp [spanLayout]
  · simp [spanLayout]
  · simp [spanLayout]

theorem spanLayout_other (depth : Nat) {char : Char} (rest : List Char)
    (noLayout : char ∉ layoutStarts) :
    spanLayout depth false (char :: rest) = ([], char :: rest) := by
  simp only [layoutStarts, List.mem_cons, List.not_mem_nil, or_false, not_or] at noLayout
  simp [spanLayout, noLayout]

/-- A character starts a comment, is a line end or a blank, or is no layout. -/
theorem layout_cases (char : Char) :
    char = '\n' ∨ char = '#' ∨ char ∈ blanks ∨ char ∉ layoutStarts := by
  simp only [blanks, layoutStarts, List.mem_cons, List.not_mem_nil, or_false]
  grind

end Cursor

open Cursor

/-- `Skippable depth layout after` says that the layout can be skipped inside
that many brackets where the other text follows: it consists of blanks, of line
ends if a bracket is open, and of comments up to the next line end. -/
inductive Skippable (depth : Nat) : List Char → List Char → Prop
  | nil {after : List Char} : Skippable depth [] after
  | blank {char : Char} {layout after : List Char} (isBlank : char ∈ blanks)
      (rest : Skippable depth layout after) : Skippable depth (char :: layout) after
  | lineEnd {layout after : List Char} (inBrackets : 0 < depth)
      (rest : Skippable depth layout after) : Skippable depth ('\n' :: layout) after
  | comment {body layout after : List Char} (sameLine : '\n' ∉ body)
      (ends : ∀ char ∈ (layout ++ after).head?, char = '\n')
      (rest : Skippable depth layout after) : Skippable depth ('#' :: body ++ layout) after

namespace Skippable

/-- The rest of a comment, and the layout behind it. -/
def InComment (depth : Nat) (text after : List Char) : Prop :=
  ∃ body layout, text = body ++ layout ∧ '\n' ∉ body ∧
    (∀ char ∈ (layout ++ after).head?, char = '\n') ∧ Skippable depth layout after

theorem InComment.of_lineEnd {depth : Nat} {text after : List Char}
    (skippable : Skippable depth text after)
    (starts : ∀ char ∈ (text ++ after).head?, char = '\n') :
    InComment depth text after :=
  ⟨[], text, rfl, List.not_mem_nil, starts, skippable⟩

theorem InComment.cons {depth : Nat} {char : Char} {text after : List Char}
    (inComment : InComment depth text after) (sameLine : char ≠ '\n') :
    InComment depth (char :: text) after := by
  rcases inComment with ⟨body, layout, rfl, bodySameLine, ends, skippable⟩
  refine ⟨char :: body, layout, rfl, ?_, ends, skippable⟩
  rw [List.mem_cons, not_or]
  exact ⟨Ne.symm sameLine, bodySameLine⟩

theorem InComment.comment {depth : Nat} {text after : List Char}
    (inComment : InComment depth text after) : Skippable depth ('#' :: text) after := by
  rcases inComment with ⟨body, layout, rfl, sameLine, ends, skippable⟩
  exact .comment sameLine ends skippable

/-- What is split off from the front of a text can be skipped, from inside a
comment as well. -/
theorem of_spanLayout (depth : Nat) (text : List Char) :
    Skippable depth (spanLayout depth false text).1 (spanLayout depth false text).2 ∧
      InComment depth (spanLayout depth true text).1 (spanLayout depth true text).2 := by
  induction text with
  | nil => exact ⟨.nil, .of_lineEnd .nil nofun⟩
  | cons char rest ih =>
      rcases ih with ⟨plain, inComment⟩
      by_cases isLineEnd : char = '\n'
      · subst isLineEnd
        rcases Nat.eq_zero_or_pos depth with rfl | inBrackets
        · simp only [spanLayout_lineEnd_outside]
          exact ⟨.nil, .of_lineEnd .nil (by simp)⟩
        · simp only [spanLayout_lineEnd_inside inBrackets]
          exact ⟨.lineEnd inBrackets plain, .of_lineEnd (.lineEnd inBrackets plain) (by simp)⟩
      · refine ⟨?_, ?_⟩
        · rcases layout_cases char with lineEnd | rfl | isBlank | noLayout
          · exact absurd lineEnd isLineEnd
          · rw [spanLayout_comment depth rest isLineEnd (.inr rfl)]
            exact inComment.comment
          · rw [spanLayout_blank depth rest isBlank]
            exact .blank isBlank plain
          · rw [spanLayout_other depth rest noLayout]
            exact .nil
        · rw [spanLayout_comment depth rest isLineEnd (.inl rfl)]
          exact inComment.cons isLineEnd

end Skippable

/-! ## Classes of tokens -/

namespace Lexeme

/-- The characters of a token: its text, and the mark behind a macro's name. -/
def spell (kind : Kind) (text : List Char) : List Char :=
  if kind = .macroName then text ++ ['!'] else text

/-- Whether a token of a kind, with the given text, is as long as its kind allows
where it stands between two texts.  Names and runs of digits cannot be extended
to either side, a fraction belongs to the number before it, two signs that make
up one comparison are not read apart, and a name is a macro's exactly if a mark
and an opening parenthesis follow. -/
def IsLongest (before after : List Char) (kind : Kind) (text : List Char) : Prop :=
  match kind with
  | .ident =>
      IsName text ∧ (∀ char ∈ before.getLast?, isLetter char = false) ∧
        (∀ char ∈ after.head?, isLetterOrDigit char = false) ∧
        ∀ behind, after ≠ '!' :: '(' :: behind
  | .macroName =>
      IsName text ∧ (∀ char ∈ before.getLast?, isLetter char = false) ∧ after.head? = some '('
  | .number =>
      (∀ char ∈ before.getLast?, isLetterOrDigit char = false) ∧
        (∀ char ∈ after.head?, char.isDigit = false) ∧
        ((IsDigits text ∧ ∀ digit behind, after = '.' :: digit :: behind → digit.isDigit = false) ∨
          ∃ whole fraction, IsDigits whole ∧ IsDigits fraction ∧ text = whole ++ '.' :: fraction)
  | .assign | .less | .greater => text = kind.name.toList ∧ after.head? ≠ some '='
  | .newline => text = ['\n']
  | .illegal => ∃ char, text = [char] ∧ isLetterOrDigit char = false ∧ symbol? char = none
  | .eof | .other _ => False
  | _ => text = kind.name.toList

/-- Whether a name or a number that ends in front of a place does not go on
behind it. -/
def Seam (before after : List Char) : Prop :=
  ∀ last ∈ before.getLast?, ∀ first ∈ after.head?,
    (isLetter last = true → isLetterOrDigit first = false) ∧
      (last.isDigit = true → first.isDigit = false)

theorem isLetterOrDigit_eq_false_iff (char : Char) :
    isLetterOrDigit char = false ↔ isLetter char = false ∧ char.isDigit = false :=
  Bool.or_eq_false_iff

theorem seam_nil (after : List Char) : Seam [] after :=
  nofun

theorem seam_of_first {before after : List Char}
    (stops : ∀ char ∈ after.head?, isLetterOrDigit char = false) : Seam before after := by
  intro last _ first isFirst
  have noFirst := stops first isFirst
  exact ⟨fun _ => noFirst, fun _ => ((isLetterOrDigit_eq_false_iff first).1 noFirst).2⟩

theorem getLast?_append_of_ne_nil (before : List Char) {text : List Char} (notEmpty : text ≠ []) :
    (before ++ text).getLast? = text.getLast? := by
  rw [List.getLast?_append, List.getLast?_eq_some_getLast notEmpty, Option.some_or]

theorem seam_of_last {before text after : List Char} (notEmpty : text ≠ [])
    (stops : ∀ char ∈ text.getLast?, isLetterOrDigit char = false) :
    Seam (before ++ text) after := by
  intro last isLast first _
  rw [getLast?_append_of_ne_nil before notEmpty] at isLast
  rcases (isLetterOrDigit_eq_false_iff last).1 (stops last isLast) with ⟨noLetter, noDigit⟩
  rw [noLetter, noDigit]
  exact ⟨nofun, nofun⟩

/-- A token that starts with a letter continues no name. -/
theorem Seam.no_letter {before rest : List Char} {first : Char} (seam : Seam before (first :: rest))
    (letter : isLetter first = true) : ∀ char ∈ before.getLast?, isLetter char = false := by
  intro last isLast
  rw [← Bool.not_eq_true]
  intro lastLetter
  have noFirst := (seam last isLast first rfl).1 lastLetter
  rw [isLetterOrDigit, letter] at noFirst
  cases noFirst

/-- A token that starts with a digit continues neither a name nor a number. -/
theorem Seam.no_letterOrDigit {before rest : List Char} {first : Char}
    (seam : Seam before (first :: rest)) (digit : first.isDigit = true) :
    ∀ char ∈ before.getLast?, isLetterOrDigit char = false := by
  intro last isLast
  rcases seam last isLast first rfl with ⟨afterLetter, afterDigit⟩
  rw [isLetterOrDigit_eq_false_iff, ← Bool.not_eq_true, ← Bool.not_eq_true]
  constructor
  · intro lastLetter
    have noFirst := afterLetter lastLetter
    rw [isLetterOrDigit, digit, Bool.or_true] at noFirst
    cases noFirst
  · intro lastDigit
    rw [afterDigit lastDigit] at digit
    cases digit

theorem first_of_dropWhile (test : Char → Bool) (text : List Char) :
    ∀ char ∈ (text.dropWhile test).head?, test char = false := by
  intro char isFirst
  have stopped := List.head?_dropWhile_not test text
  rw [isFirst] at stopped
  exact stopped

/-! ### What is read is the longest token -/

/-- Whether a token is cut off from the front of a text and could not be longer
there. -/
def Cuts (before text : List Char) (lexeme : Lexeme) : Prop :=
  lexeme.covered ++ lexeme.rest = text ∧
    IsLongest before lexeme.rest lexeme.kind lexeme.text

theorem cuts_word {before rest : List Char} {first : Char} (letter : isLetter first = true)
    (seam : Seam before (first :: rest)) : Cuts before (first :: rest) (word first rest) := by
  have parts := List.takeWhile_append_dropWhile (p := isLetterOrDigit) (l := rest)
  have isName : IsName (first :: rest.takeWhile isLetterOrDigit) :=
    ⟨letter, forall_mem_takeWhile _ _⟩
  have stops := first_of_dropWhile isLetterOrDigit rest
  unfold word
  split
  · rename_i after dropped
    rw [dropped] at parts
    refine ⟨?_, isName, seam.no_letter letter, rfl⟩
    simpa [covered] using parts
  · rename_i noMacro
    refine ⟨?_, isName, seam.no_letter letter, stops, noMacro⟩
    simp [covered, parts]

theorem cuts_numeral {before rest : List Char} {first : Char} (digit : first.isDigit = true)
    (seam : Seam before (first :: rest)) :
    Cuts before (first :: rest) (numeral first rest) := by
  have parts := List.takeWhile_append_dropWhile (p := Char.isDigit) (l := rest)
  have isWhole : IsDigits (first :: rest.takeWhile Char.isDigit) :=
    ⟨List.cons_ne_nil _ _, List.forall_mem_cons.2 ⟨digit, forall_mem_takeWhile _ _⟩⟩
  have stops := first_of_dropWhile Char.isDigit rest
  unfold numeral
  split
  · rename_i second after dropped
    rw [dropped] at parts stops
    split
    · rename_i secondDigit
      have fractionParts := List.takeWhile_append_dropWhile (p := Char.isDigit) (l := after)
      have isFraction : IsDigits (second :: after.takeWhile Char.isDigit) :=
        ⟨List.cons_ne_nil _ _, List.forall_mem_cons.2 ⟨secondDigit, forall_mem_takeWhile _ _⟩⟩
      refine ⟨?_, seam.no_letterOrDigit digit, first_of_dropWhile Char.isDigit after,
        .inr ⟨_, _, isWhole, isFraction, rfl⟩⟩
      simpa [covered, fractionParts] using parts
    · rename_i noDigit
      refine ⟨?_, seam.no_letterOrDigit digit, stops, .inl ⟨isWhole, ?_⟩⟩
      · simpa [covered] using parts
      · rintro _ _ ⟨⟩
        exact Bool.eq_false_iff.2 noDigit
  · rename_i noFraction
    refine ⟨?_, seam.no_letterOrDigit digit, stops, .inl ⟨isWhole, ?_⟩⟩
    · simp [covered, parts]
    · intro next behind dropped
      exact absurd dropped (noFraction next behind)

/-- The text of a sign is the name of its kind. -/
theorem isLongest_symbol {before after : List Char} {char : Char} {kind : Kind}
    (symbolEq : symbol? char = some kind)
    (alone : ∀ longer, withEquality? char = some longer → after.head? ≠ some '=') :
    IsLongest before after kind [char] := by
  unfold symbol? at symbolEq
  split at symbolEq
  all_goals cases symbolEq
  all_goals first | rfl | exact ⟨rfl, alone _ rfl⟩

theorem isLongest_withEquality {before after : List Char} {char : Char} {kind : Kind}
    (symbolEq : withEquality? char = some kind) : IsLongest before after kind [char, '='] := by
  unfold withEquality? at symbolEq
  split at symbolEq
  all_goals cases symbolEq
  all_goals rfl

theorem cuts_sign (before rest : List Char) {first : Char} (noLetter : isLetter first = false)
    (noDigit : first.isDigit = false) : Cuts before (first :: rest) (read first rest) := by
  have noWord := (isLetterOrDigit_eq_false_iff first).2 ⟨noLetter, noDigit⟩
  unfold read
  rw [noLetter, noDigit]
  simp only [Bool.false_eq_true, if_false]
  split
  · rename_i kind after longer
    have noMacro : kind ≠ .macroName := by
      rintro rfl
      exact kind_of_symbol? (.inr longer) (by decide)
    refine ⟨?_, isLongest_withEquality longer⟩
    simp [covered, noMacro]
  · rename_i noLonger
    cases symbolEq : symbol? first with
    | none => exact ⟨rfl, first, rfl, noWord, symbolEq⟩
    | some kind =>
        have noMacro : kind ≠ .macroName := by
          rintro rfl
          exact kind_of_symbol? (.inl symbolEq) (by decide)
        refine ⟨?_, isLongest_symbol symbolEq ?_⟩
        · simp [covered, noMacro]
        · intro longer longerEq firstEq
          rcases List.head?_eq_some_iff.1 firstEq with ⟨behind, restEq⟩
          exact noLonger longer behind longerEq restEq

/-- What is read at a seam is the longest token there. -/
theorem cuts_read {before rest : List Char} {first : Char} (seam : Seam before (first :: rest)) :
    Cuts before (first :: rest) (read first rest) := by
  by_cases letter : isLetter first = true
  · rw [read_of_isLetter letter]
    exact cuts_word letter seam
  · by_cases digit : first.isDigit = true
    · rw [read_of_isDigit digit]
      exact cuts_numeral digit seam
    · exact cuts_sign before rest (Bool.eq_false_iff.2 letter) (Bool.eq_false_iff.2 digit)

/-! ### Seams -/

theorem seam_of_digits {before digits after : List Char} (shape : IsDigits digits)
    (stops : ∀ char ∈ after.head?, char.isDigit = false) : Seam (before ++ digits) after := by
  intro last isLast first isFirst
  rw [getLast?_append_of_ne_nil before shape.1] at isLast
  have lastDigit := shape.2 last (List.mem_of_getLast? isLast)
  rw [isLetter_eq_false_of_isDigit lastDigit]
  exact ⟨nofun, fun _ => stops first isFirst⟩

theorem seam_of_sign (before after : List Char) {text : List Char}
    (isSign : text ≠ [] ∧ text.getLast?.any isLetterOrDigit = false) :
    Seam (before ++ text) after := by
  apply seam_of_last isSign.1
  intro char isLast
  have noWord := isSign.2
  rw [isLast] at noWord
  exact noWord

/-- A name or a number does not go on behind the longest token. -/
theorem IsLongest.seam {before after text : List Char} {kind : Kind}
    (longest : IsLongest before after kind text) : Seam (before ++ spell kind text) after := by
  cases kind with
  | ident => exact seam_of_first longest.2.2.1
  | macroName =>
      apply seam_of_first
      intro char isFirst
      rw [longest.2.2] at isFirst
      cases isFirst
      decide
  | number =>
      rcases longest with ⟨_, stops, ⟨shape, _⟩ | ⟨whole, fraction, _, shape, rfl⟩⟩
      · exact seam_of_digits shape stops
      · change Seam (before ++ (whole ++ '.' :: fraction)) after
        rw [List.append_cons, ← List.append_assoc]
        exact seam_of_digits shape stops
  | illegal =>
      rcases longest with ⟨char, rfl, noWord, _⟩
      exact seam_of_sign before after ⟨List.cons_ne_nil _ _, noWord⟩
  | newline =>
      cases longest
      exact seam_of_sign before after (by decide)
  | assign | less | greater =>
      cases longest.1
      exact seam_of_sign before after (by decide)
  | eof | other => exact longest.elim
  | _ =>
      cases longest
      exact seam_of_sign before after (by decide)

/-- A token and what is left behind it make up the text. -/
theorem covered_append_rest (first : Char) (rest : List Char) :
    (read first rest).covered ++ (read first rest).rest = first :: rest :=
  (cuts_read (seam_nil _)).1

/-- A token covers at least its first character. -/
theorem covered_read_ne_nil (first : Char) (rest : List Char) :
    (read first rest).covered ≠ [] := by
  intro isEmpty
  have cut := covered_append_rest first rest
  have bound := read_rest_le first rest
  rw [isEmpty, List.nil_append] at cut
  rw [cut, List.length_cons] at bound
  exact Nat.not_succ_le_self _ bound

end Lexeme

open Lexeme

/-- A name or a number does not go on behind layout. -/
theorem Skippable.seam {depth : Nat} {layout after before : List Char}
    (skippable : Skippable depth layout after) (seam : Seam before (layout ++ after)) :
    Seam (before ++ layout) after := by
  induction skippable generalizing before with
  | nil =>
      rw [List.append_nil]
      exact seam
  | @blank char layout after isBlank _ ih =>
      have noWord : isLetterOrDigit char = false := by
        have noBlank : blanks.all (fun blank => !isLetterOrDigit blank) = true := by decide
        simpa using List.all_eq_true.1 noBlank char isBlank
      rw [List.append_cons]
      apply ih
      apply seam_of_last (List.cons_ne_nil _ _)
      rintro _ ⟨⟩
      exact noWord
  | @lineEnd layout after _ _ ih =>
      rw [List.append_cons]
      apply ih
      apply seam_of_last (List.cons_ne_nil _ _)
      rintro _ ⟨⟩
      decide
  | @comment body layout after _ ends _ ih =>
      rw [← List.append_assoc]
      apply ih
      apply seam_of_first
      intro char isFirst
      rw [ends char isFirst]
      decide

/-! ## Tilings -/

/-- The characters that a token covers. -/
def Token.spelling (token : Token) : List Char :=
  spell token.kind token.text.toList

theorem Token.width_eq_length_spelling (token : Token) :
    token.width = token.spelling.length := by
  unfold width spelling spell
  split
  · rw [List.length_append, String.length_toList]
    rfl
  · rw [String.length_toList]
    rfl

/-- `Tiled before depth text tokens` says that a text which stands behind
another one, inside that many brackets, consists of the tokens with layout in
front of each and behind the last.  Every token has its place and is the longest
there. -/
inductive Tiled : List Char → Nat → List Char → List Token → Prop
  | done {before layout : List Char} {depth : Nat} (skippable : Skippable depth layout []) :
      Tiled before depth layout []
  | token {before layout after : List Char} {depth : Nat} {token : Token} {tokens : List Token}
      (skippable : Skippable depth layout (token.spelling ++ after))
      (visible : token.spelling ≠ []) (placed : token.start = .behind (before ++ layout))
      (longest : IsLongest (before ++ layout) after token.kind token.text.toList)
      (rest : Tiled (before ++ layout ++ token.spelling) (token.kind.depthAfter depth) after
        tokens) :
      Tiled before depth (layout ++ (token.spelling ++ after)) (token :: tokens)

/-- No token of a tiling is an end mark. -/
theorem Tiled.kind_ne_eof {before text : List Char} {depth : Nat} {tokens : List Token}
    (tiled : Tiled before depth text tokens) : ∀ token ∈ tokens, token.kind ≠ .eof := by
  induction tiled with
  | done => exact List.forall_mem_nil _
  | @token _ _ _ _ token _ _ _ _ longest _ ih =>
      rw [List.forall_mem_cons]
      constructor
      · intro isEnd
        rw [isEnd] at longest
        exact longest
      · exact ih

/-- The number of open brackets behind some tokens. -/
def depthBehind (depth : Nat) (tokens : List Token) : Nat :=
  tokens.foldl (fun depth token => token.kind.depthAfter depth) depth

namespace Cursor

theorem next_eq_of_end {cursor : Cursor}
    (atEnd : (spanLayout cursor.depth false cursor.rest).2 = []) :
    cursor.next.1 =
      ⟨.eof, "", cursor.file,
        cursor.place.advance (spanLayout cursor.depth false cursor.rest).1⟩ := by
  unfold next
  simp only [atEnd]

theorem next_eq_of_read {cursor : Cursor} {first : Char} {rest : List Char}
    (ahead : (spanLayout cursor.depth false cursor.rest).2 = first :: rest) :
    let place := cursor.place.advance (spanLayout cursor.depth false cursor.rest).1
    let lexeme := Lexeme.read first rest
    cursor.next =
      (⟨lexeme.kind, String.ofList lexeme.text, cursor.file, place⟩,
        ⟨cursor.file, lexeme.rest, place.advance lexeme.covered,
          lexeme.kind.depthAfter cursor.depth⟩) := by
  unfold next
  simp only [ahead]

/-- The tokens ahead tile the text ahead, and the end mark stands behind it. -/
theorem exists_tiled (cursor : Cursor) (before : List Char)
    (placed : cursor.place = .behind before) (seam : Seam before cursor.rest) :
    ∃ tokens, cursor.tokens =
        tokens ++ [⟨.eof, "", cursor.file, .behind (before ++ cursor.rest)⟩] ∧
      Tiled before cursor.depth cursor.rest tokens := by
  have parts := spanLayout_append cursor.depth false cursor.rest
  have skippable := (Skippable.of_spanLayout cursor.depth cursor.rest).1
  cases ahead : (spanLayout cursor.depth false cursor.rest).2 with
  | nil =>
      rw [ahead, List.append_nil] at parts
      rw [ahead, parts] at skippable
      refine ⟨[], ?_, .done skippable⟩
      rw [tokens_of_end ahead, next_eq_of_end ahead, placed, Position.advance_behind, parts,
        List.nil_append]
  | cons first rest =>
      rw [ahead] at parts skippable
      have shorter := next_rest_lt cursor (kind_next_ne_eof ahead)
      have nextEq := next_eq_of_read ahead
      generalize (spanLayout cursor.depth false cursor.rest).1 = layout at parts skippable nextEq
      rw [← parts] at seam
      -- Layout keeps the seam, so the token is the longest, so there is a seam behind it again.
      rcases cuts_read (skippable.seam seam) with ⟨cut, longest⟩
      have spelled : cursor.next.1.spelling = (Lexeme.read first rest).covered := by
        rw [nextEq, Token.spelling, String.toList_ofList]
        rfl
      have restEq : cursor.next.1.spelling ++ cursor.next.2.rest = first :: rest := by
        rw [spelled, nextEq, cut]
      have depthEq : cursor.next.2.depth = cursor.next.1.kind.depthAfter cursor.depth := by
        rw [nextEq]
      have afterPlaced : cursor.next.2.place =
          .behind (before ++ layout ++ cursor.next.1.spelling) := by
        rw [spelled, nextEq, placed, Position.advance_behind, Position.advance_behind]
      have afterSeam : Seam (before ++ layout ++ cursor.next.1.spelling) cursor.next.2.rest := by
        rw [spelled, nextEq]
        exact longest.seam
      rcases exists_tiled cursor.next.2 _ afterPlaced afterSeam with ⟨tokens, tokensEq, tiled⟩
      rw [← restEq] at parts skippable
      rw [← parts]
      refine ⟨cursor.next.1 :: tokens, ?_, .token skippable ?_ ?_ ?_ ?_⟩
      · rw [tokens_of_read ahead, tokensEq]
        simp [nextEq]
      · rw [spelled]
        exact covered_read_ne_nil first rest
      · rw [nextEq, placed, Position.advance_behind]
      · rw [nextEq, String.toList_ofList]
        exact longest
      · rw [← depthEq]
        exact tiled
termination_by cursor.rest.length

end Cursor

end GraphCalc
