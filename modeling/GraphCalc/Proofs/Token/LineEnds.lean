import GraphCalc.Proofs.Token.Offsets
import GraphCalc.Proofs.Token.Runs

/-!
# Line ends as tokens

A line end is a token exactly where no bracket is open.  Brackets are counted along the
tokens in front of it.  A closing bracket that closes nothing is not counted, and a
comment holds no tokens, so its brackets are not counted either.
-/

namespace GraphCalc

open Cursor Lexeme

/-! ## Counting brackets -/

def openingBrackets : List (List Char) :=
  [['('], ['['], ['\x7b']]

def closingBrackets : List (List Char) :=
  [[')'], [']'], ['\x7d']]

/-- The number of open brackets behind a token with the text, which never falls below
zero. -/
def bracketStep (depth : Int) (text : List Char) : Int :=
  if text ∈ openingBrackets then
    depth + 1
  else if text ∈ closingBrackets then
    max 0 (depth - 1)
  else
    depth

/-- The number of brackets that are open behind tokens. -/
def bracketDepth (tokens : List Token) : Int :=
  tokens.foldl (fun depth token => bracketStep depth token.text.toList) 0

/-- The tokens that start before an offset. -/
def tokensBefore (tokens : List Token) (offset : Nat) : List Token :=
  tokens.filter fun token => token.start.offset < offset

/-- The number of brackets that are open at an offset. -/
def bracketDepthAt (tokens : List Token) (offset : Nat) : Int :=
  bracketDepth (tokensBefore tokens offset)

theorem bracketStep_nonneg {depth : Int} (bound : 0 ≤ depth) (text : List Char) :
    0 ≤ bracketStep depth text := by
  unfold bracketStep
  split
  · omega
  · split
    · exact Int.le_max_left _ _
    · exact bound

theorem foldl_bracketStep_nonneg (tokens : List Token) {depth : Int} (bound : 0 ≤ depth) :
    0 ≤ tokens.foldl (fun depth token => bracketStep depth token.text.toList) depth := by
  induction tokens generalizing depth with
  | nil => exact bound
  | cons token tokens ih => exact ih (bracketStep_nonneg bound _)

/-- Outside brackets, tokens that open none stay outside. -/
theorem foldl_bracketStep_zero {tokens : List Token}
    (noneOpen : ∀ token ∈ tokens, token.text.toList ∉ openingBrackets) :
    tokens.foldl (fun depth token => bracketStep depth token.text.toList) 0 = 0 := by
  induction tokens with
  | nil => rfl
  | cons token tokens ih =>
      rw [List.forall_mem_cons] at noneOpen
      have stays : bracketStep 0 token.text.toList = 0 := by
        rw [bracketStep, if_neg noneOpen.1]
        split
        · rfl
        · rfl
      rw [List.foldl_cons, stays]
      exact ih noneOpen.2

/-! ## Brackets are tokens -/

namespace Lexeme

/-- A bracket starts with a sign. -/
theorem bracketStep_of_no_symbol {text : List Char} (noSymbol : text.head?.bind symbol? = none)
    (depth : Int) : bracketStep depth text = depth := by
  have signs : (openingBrackets ++ closingBrackets).all
      (fun sign => (sign.head?.bind symbol?).isSome) = true := by
    decide
  have noBracket : text ∉ openingBrackets ++ closingBrackets := by
    intro isBracket
    have isSign := List.all_eq_true.1 signs text isBracket
    rw [noSymbol] at isSign
    cases isSign
  rw [List.mem_append, not_or] at noBracket
  rw [bracketStep, if_neg noBracket.1, if_neg noBracket.2]

theorem symbol?_of_isLetterOrDigit {char : Char} (isWord : isLetterOrDigit char = true) :
    symbol? char = none := by
  cases symbolEq : symbol? char with
  | none => rfl
  | some kind =>
      obtain ⟨noLetter, noDigit⟩ := not_word_of_symbol? symbolEq
      rw [isLetterOrDigit, noLetter, noDigit] at isWord
      cases isWord

theorem IsName.no_symbol {text : List Char} (shape : IsName text) :
    text.head?.bind symbol? = none := by
  cases text with
  | nil => rfl
  | cons first rest =>
      apply symbol?_of_isLetterOrDigit
      rw [isLetterOrDigit, shape.1]
      rfl

theorem IsDigits.no_symbol {text : List Char} (shape : IsDigits text) (more : List Char) :
    (text ++ more).head?.bind symbol? = none := by
  cases text with
  | nil => exact absurd rfl shape.1
  | cons first rest =>
      apply symbol?_of_isLetterOrDigit
      rw [isLetterOrDigit, shape.2 first List.mem_cons_self, Bool.or_true]

/-- Brackets are counted as the reader counts them. -/
theorem IsLongest.bracketStep_eq {before after text : List Char} {kind : Kind}
    (longest : IsLongest before after kind text) (depth : Nat) :
    bracketStep depth text = kind.depthAfter depth := by
  cases kind with
  | ident => exact bracketStep_of_no_symbol longest.1.no_symbol depth
  | macroName => exact bracketStep_of_no_symbol longest.1.no_symbol depth
  | number =>
      rcases longest with ⟨-, -, ⟨shape, -⟩ | ⟨whole, fraction, shape, -, rfl⟩⟩
      · have noSymbol := shape.no_symbol []
        rw [List.append_nil] at noSymbol
        exact bracketStep_of_no_symbol noSymbol depth
      · exact bracketStep_of_no_symbol (shape.no_symbol _) depth
  | illegal =>
      rcases longest with ⟨char, rfl, -, noSymbol⟩
      have noBracket : [char].head?.bind symbol? = none := noSymbol
      exact bracketStep_of_no_symbol noBracket depth
  | assign | less | greater =>
      cases longest.1
      rfl
  | eof | other => exact longest.elim
  | rparen | rbrack | rbrace =>
      cases longest
      change max 0 ((depth : Int) - 1) = ((depth - 1 : Nat) : Int)
      omega
  | _ =>
      cases longest
      rfl

theorem IsName.not_mem_of_mark {text : List Char} (shape : IsName text) {mark : Char}
    (noWord : isLetterOrDigit mark = false) : mark ∉ text := by
  cases text with
  | nil => exact List.not_mem_nil
  | cons first rest =>
      intro isChar
      rcases List.mem_cons.1 isChar with rfl | isChar
      · rw [isLetterOrDigit, shape.1] at noWord
        cases noWord
      · rw [shape.2 mark isChar] at noWord
        cases noWord

theorem IsDigits.not_mem_of_mark {text : List Char} (shape : IsDigits text) {mark : Char}
    (noDigit : mark.isDigit = false) : mark ∉ text := by
  intro isChar
  rw [shape.2 mark isChar] at noDigit
  cases noDigit

theorem not_mem_layoutStarts_of_sign {sign : List Char} {char : Char}
    (noLayout : sign.any layoutStarts.contains = false) (isChar : char ∈ sign) :
    char ∉ layoutStarts := by
  have excluded := List.any_eq_false.1 noLayout char isChar
  rwa [List.contains_iff_mem] at excluded

/-- A token with a character that layout can start with is that character alone. -/
theorem IsLongest.eq_mark {before after text : List Char} {kind : Kind} {mark : Char}
    (longest : IsLongest before after kind text) (isMark : mark ∈ layoutStarts)
    (inToken : mark ∈ spell kind text) :
    spell kind text = [mark] ∧ kind = (symbol? mark).getD .illegal := by
  rcases mark_of_mem_layoutStarts isMark with ⟨noWord, noDigit, noSign⟩
  cases kind with
  | ident => exact absurd inToken (longest.1.not_mem_of_mark noWord)
  | macroName =>
      rcases List.mem_append.1 inToken with inName | isBang
      · exact absurd inName (longest.1.not_mem_of_mark noWord)
      · rw [List.mem_singleton.1 isBang] at noSign
        exact absurd (by decide) noSign
  | number =>
      change mark ∈ text at inToken
      rcases longest with ⟨-, -, ⟨shape, -⟩ | ⟨whole, fraction, shape, fractionShape, rfl⟩⟩
      · exact absurd inToken (shape.not_mem_of_mark noDigit)
      · rw [List.mem_append, List.mem_cons] at inToken
        rcases inToken with inWhole | rfl | inFraction
        · exact absurd inWhole (shape.not_mem_of_mark noDigit)
        · exact absurd (by decide) noSign
        · exact absurd inFraction (fractionShape.not_mem_of_mark noDigit)
  | illegal =>
      rcases longest with ⟨char, rfl, -, noSymbol⟩
      rcases List.mem_singleton.1 inToken with rfl
      rw [noSymbol]
      exact ⟨rfl, rfl⟩
  | newline =>
      cases longest
      rcases List.mem_singleton.1 inToken with rfl
      exact ⟨rfl, rfl⟩
  | assign | less | greater =>
      cases longest.1
      exact absurd isMark (not_mem_layoutStarts_of_sign (by decide) inToken)
  | eof | other => exact longest.elim
  | _ =>
      cases longest
      exact absurd isMark (not_mem_layoutStarts_of_sign (by decide) inToken)

end Lexeme

/-- The brackets behind tokens of a text are those that the reader counts. -/
theorem bracketDepth_eq {tokens : List Token}
    (areLongest : ∀ token ∈ tokens,
      ∃ before after, IsLongest before after token.kind token.text.toList) :
    bracketDepth tokens = depthBehind 0 tokens := by
  have folds : ∀ depth : Nat,
      tokens.foldl (fun depth token => bracketStep depth token.text.toList) (depth : Int) =
        depthBehind depth tokens := by
    induction tokens with
    | nil => exact fun _ => rfl
    | cons token tokens ih =>
        rw [List.forall_mem_cons] at areLongest
        rcases areLongest with ⟨⟨before, after, longest⟩, areLongest⟩
        intro depth
        rw [List.foldl_cons, longest.bracketStep_eq]
        exact ih areLongest _
  exact folds 0

/-! ## Tokens in their order -/

section Order

variable {file : String} {text : List Char}

theorem exists_tiled_tokenize (file : String) (text : List Char) :
    ∃ tokens, tokenize file text =
        tokens ++ [⟨.eof, "", file, .behind (ofText file text).rest⟩] ∧
      Tiled [] 0 (ofText file text).rest tokens := by
  rcases exists_tiled (.ofText file text) [] rfl (seam_nil _) with ⟨tokens, tokensEq, tiled⟩
  exact ⟨tokens, tokensEq, tiled⟩

/-- Tokens start one behind the other. -/
theorem tokenize_pairwise (file : String) (text : List Char) :
    (tokenize file text).Pairwise fun left right => left.start.offset < right.start.offset := by
  rcases exists_tiled_tokenize file text with ⟨tokens, tokensEq, tiled⟩
  have accounts := tiled.accounts
  rw [tokensEq, List.pairwise_append]
  refine ⟨?_, List.pairwise_singleton _ _, ?_⟩
  · apply accounts.ordered.imp_of_mem
    intro left right isLeft _ ordered
    exact Int.lt_of_lt_of_le (accounts.inside left isLeft).2.1 ordered
  · intro token isToken finish isFinish
    rw [List.mem_singleton.1 isFinish]
    have inside := accounts.inside token isToken
    exact Int.lt_of_lt_of_le inside.2.1 inside.2.2

/-- The tokens that start before another one are those in front of it. -/
theorem filter_start_lt {front late : List Token} {token : Token}
    (tokensEq : tokenize file text = front ++ token :: late) :
    (tokenize file text).filter (fun other => other.start.offset < token.start.offset) =
      front := by
  have pairwise := tokenize_pairwise file text
  rw [tokensEq, List.pairwise_append, List.pairwise_cons] at pairwise
  rcases pairwise with ⟨-, ⟨behind, -⟩, ahead⟩
  have allFront : front.filter (fun other => other.start.offset < token.start.offset) = front := by
    rw [List.filter_eq_self]
    intro other isOther
    rw [decide_eq_true_iff]
    exact ahead other isOther token List.mem_cons_self
  have noLate : (token :: late).filter (fun other => other.start.offset < token.start.offset) =
      [] := by
    rw [List.filter_eq_nil_iff]
    intro other isOther
    rw [decide_eq_true_iff, Int.not_lt]
    rcases List.mem_cons.1 isOther with rfl | isLate
    · exact Int.le_refl _
    · exact Int.le_of_lt (behind other isLate)
  rw [tokensEq, List.filter_append, allFront, noLate, List.append_nil]

/-- Tokens that are passed were the longest where they stood. -/
theorem Cursor.Passes.areLongest {cursor after : Cursor} {tokens : List Token}
    (passes : Passes cursor tokens after) :
    ∀ token ∈ tokens, ∃ before after, IsLongest before after token.kind token.text.toList := by
  induction passes with
  | done => exact List.forall_mem_nil _
  | @token cursor after tokens notEnd _ ih =>
      rw [List.forall_mem_cons]
      refine ⟨?_, ih⟩
      rcases exists_faces_of_ne_eof notEnd with ⟨layout, first, rest, faces⟩
      have longest := (cuts_read (seam_nil (first :: rest))).2
      simp only [faces.next_eq_read, String.toList_ofList]
      exact ⟨_, _, longest⟩

/-- In front of a token, the brackets are open that the reader has counted. -/
theorem bracketDepthAt_start {front late : List Token} {token : Token} {after : Cursor}
    (tokensEq : tokenize file text = front ++ token :: late)
    (passes : Passes (ofText file text) front after) {offset : Nat}
    (start : token.start.offset = offset) :
    bracketDepthAt (tokenize file text) offset = after.depth := by
  unfold bracketDepthAt tokensBefore
  rw [← start, filter_start_lt tokensEq, bracketDepth_eq passes.areLongest, passes.depth_eq]
  rfl

theorem getElem?_start {passed layout ahead : List Char} {token : Token}
    (textEq : text = passed ++ (layout ++ ahead))
    (placed : token.start = .behind (passed ++ layout)) {offset : Nat}
    (start : token.start.offset = offset) : text[offset]? = ahead.head? := by
  rw [placed] at start
  rw [← Int.ofNat.inj start, textEq, ← List.append_assoc,
    List.getElem?_append_right (Nat.le_refl _), Nat.sub_self, List.head?_eq_getElem?]

/-- No token starts with the sign of a comment. -/
theorem getElem?_start_ne_sign {token : Token} (isToken : token ∈ tokenize file text)
    {offset : Nat} (start : token.start.offset = offset) :
    (ofText file text).rest[offset]? ≠ some '#' := by
  rcases List.append_of_mem isToken with ⟨front, late, tokensEq⟩
  rcases exists_faces_of_tokenize tokensEq with
    ⟨after, passed, layout, ahead, -, faces, -, restEq, placed⟩
  rw [getElem?_start restEq placed start]
  intro isSign
  rcases faces.starts '#' isSign with noLayout | ⟨isLineEnd, -⟩
  · exact absurd (by decide) noLayout
  · exact absurd isLineEnd (by decide)

/-- A token that covers a character that layout can start with starts there. -/
theorem Tiled.start_of_mark {tokens : List Token} (tiled : Tiled [] 0 text tokens) {token : Token}
    (isToken : token ∈ tokens) {offset : Nat} (covers : token.Covers offset) {mark : Char}
    (isMark : mark ∈ layoutStarts) (charEq : text[offset]? = some mark) :
    token.start.offset = offset ∧ token.kind = (symbol? mark).getD .illegal := by
  rcases tiled.stands token isToken with ⟨front, after, textEq, -, -, placed, longest⟩
  rcases Token.offsets placed with ⟨start, stop⟩
  rcases covers with ⟨fromStart, toStop⟩
  have fromFront : front.length ≤ offset := by omega
  have inSpelling : offset - front.length < token.spelling.length := by omega
  change text = front ++ (token.spelling ++ after) at textEq
  rw [textEq, List.getElem?_append_right fromFront, List.getElem?_append_left inSpelling] at charEq
  rcases longest.eq_mark isMark (List.mem_of_getElem? charEq) with ⟨spelled, kindEq⟩
  have narrow : token.spelling.length = 1 := congrArg List.length spelled
  refine ⟨?_, kindEq⟩
  omega

end Order

/-! ## Comments -/

namespace IsComment

variable {text : List Char} {first last : Nat}

theorem last_le (isComment : IsComment text first last) : last ≤ text.length := by
  rcases isComment.ends with atEnd | lineEnd
  · exact Nat.le_of_eq atEnd
  · exact Nat.le_of_lt (List.getElem?_eq_some_iff.1 lineEnd).1

/-- A comment that starts before the end of another one ends no later. -/
theorem last_le_last {otherFirst otherLast : Nat} (isComment : IsComment text first last)
    (other : IsComment text otherFirst otherLast) (starts : otherFirst ≤ last) :
    otherLast ≤ last := by
  rcases isComment.ends with atEnd | lineEnd
  · rw [atEnd]
    exact other.last_le
  · rw [← Nat.not_lt]
    intro longer
    exact other.sameLine last starts longer lineEnd

end IsComment

section Comments

variable {file : String} {text : List Char} {first last : Nat}

/-- No token starts in a comment. -/
theorem no_start_in_comment (isComment : IsComment (ofText file text).rest first last) :
    ∀ token ∈ tokenize file text, token.start.offset < first ∨ last ≤ token.start.offset := by
  rcases exists_tiled_tokenize file text with ⟨tokens, tokensEq, tiled⟩
  have accounts := tiled.accounts
  have inText : first < (ofText file text).rest.length :=
    (List.getElem?_eq_some_iff.1 isComment.starts).1
  have uncovered : ∀ token ∈ tokens, ¬token.Covers first := by
    intro token isToken covers
    have start := (tiled.start_of_mark isToken covers (by decide) isComment.starts).1
    have isToken : token ∈ tokenize file text := by
      rw [tokensEq]
      exact List.mem_append_left _ isToken
    exact getElem?_start_ne_sign isToken start isComment.starts
  rcases accounts.skipped first inText uncovered with ⟨blank, isBlank, charEq⟩ | ⟨charEq, -⟩ |
    ⟨otherFirst, otherLast, other, fromOther, toOther, noToken⟩
  · rw [isComment.starts] at charEq
    cases charEq
    exact absurd isBlank (by decide)
  · rw [isComment.starts] at charEq
    cases charEq
  · -- The sign stands in a comment that ends with its line, as this one does.
    have sameLast := other.last_le_last isComment (Nat.le_of_lt toOther)
    intro token isToken
    rw [tokensEq, List.mem_append, List.mem_singleton] at isToken
    rcases isToken with isToken | rfl
    · have inside := accounts.inside token isToken
      have covers : token.Covers token.start.offset.toNat := by
        constructor
        · omega
        · omega
      have notHere := noToken token.start.offset.toNat
      rcases Int.lt_or_le token.start.offset first with before | fromFirst
      · exact .inl before
      · rcases Int.lt_or_le token.start.offset last with inComment | behind
        · exact absurd covers (notHere (by omega) (by omega) token isToken)
        · exact .inr behind
    · exact .inr (Int.ofNat_le.2 isComment.last_le)

theorem bracketDepthAt_comment (isComment : IsComment (ofText file text).rest first last)
    (ordered : first ≤ last) :
    bracketDepthAt (tokenize file text) last = bracketDepthAt (tokenize file text) first := by
  unfold bracketDepthAt tokensBefore
  congr 1
  apply List.filter_congr
  intro token isToken
  rw [decide_eq_decide]
  have outside := no_start_in_comment isComment token isToken
  omega

end Comments

/-! ## Line ends -/

/-- Whether a line end is a token at an offset. -/
def EndsLine (tokens : List Token) (offset : Nat) : Prop :=
  ∃ token ∈ tokens, token.kind = .newline ∧ token.start.offset = offset

section LineEnds

variable {file : String} {text : List Char} {offset : Nat}

theorem EndsLine.outside (endsLine : EndsLine (tokenize file text) offset) :
    (ofText file text).rest[offset]? = some '\n' ∧
      bracketDepthAt (tokenize file text) offset = 0 := by
  rcases endsLine with ⟨token, isToken, isLineEnd, start⟩
  rcases List.append_of_mem isToken with ⟨front, late, tokensEq⟩
  rcases exists_faces_of_tokenize tokensEq with
    ⟨after, passed, layout, ahead, passes, faces, rfl, restEq, placed⟩
  cases ahead with
  | nil =>
      rw [faces.next_eq_end] at isLineEnd
      cases isLineEnd
  | cons first rest =>
      have isFirst : first = '\n' := by
        simp only [faces.next_eq_read] at isLineEnd
        exact first_of_newline isLineEnd
      subst isFirst
      constructor
      · exact getElem?_start restEq placed start
      · rw [bracketDepthAt_start tokensEq passes start, (faces.starts '\n' rfl).outside]
        rfl

theorem endsLine_of_outside (lineEnd : (ofText file text).rest[offset]? = some '\n')
    (outside : bracketDepthAt (tokenize file text) offset = 0) :
    EndsLine (tokenize file text) offset := by
  rcases exists_tiled_tokenize file text with ⟨tokens, tokensEq, tiled⟩
  have inText : offset < (ofText file text).rest.length :=
    (List.getElem?_eq_some_iff.1 lineEnd).1
  by_cases covered : ∃ token ∈ tokens, token.Covers offset
  · rcases covered with ⟨token, isToken, covers⟩
    rcases tiled.start_of_mark isToken covers (by decide) lineEnd with ⟨start, kindEq⟩
    refine ⟨token, ?_, kindEq, start⟩
    rw [tokensEq]
    exact List.mem_append_left _ isToken
  · have uncovered : ∀ token ∈ tokens, ¬token.Covers offset := by
      intro token isToken covers
      exact covered ⟨token, isToken, covers⟩
    have depthEq : bracketDepthAt (tokenize file text) offset = openBrackets tokens offset := by
      have notEnd : ¬((ofText file text).rest.length : Int) < offset := by omega
      unfold bracketDepthAt tokensBefore openBrackets
      rw [tokensEq, List.filter_append, List.filter_cons_of_neg, List.filter_nil, List.append_nil]
      · apply bracketDepth_eq
        intro token isToken
        rcases tiled.stands token (List.mem_filter.1 isToken).1 with
          ⟨front, after, -, -, -, -, longest⟩
        exact ⟨front, after, longest⟩
      · rw [decide_eq_true_iff]
        exact notEnd
    rcases tiled.accounts.skipped offset inText uncovered with ⟨blank, isBlank, charEq⟩ |
      ⟨-, inBrackets⟩ | ⟨first, last, isComment, fromFirst, toLast, -⟩
    · rw [lineEnd] at charEq
      cases charEq
      exact absurd isBlank (by decide)
    · omega
    · exact absurd lineEnd (isComment.sameLine offset fromFirst toLast)

end LineEnds

/-- A line end is a token exactly outside brackets: at an offset of the text up to its first
NUL there is a token for a line end if and only if a line end stands there and no bracket is
open behind the tokens in front of it.  The number of open brackets is never negative.  No
token starts in a comment, so its brackets are not counted and the line end behind it is a
token as it would be in front of it.  Closing brackets that close nothing do not keep a later
line end from being a token. -/
theorem newlines_end_statements_outside_brackets (file : String) (text : List Char) :
    let input := text.take (text.idxOf '\x00')
    let tokens := tokenize file text
    (∀ offset, EndsLine tokens offset ↔
      input[offset]? = some '\n' ∧ bracketDepthAt tokens offset = 0) ∧
    (∀ offset, 0 ≤ bracketDepthAt tokens offset) ∧
    (∀ first last, IsComment input first last → first ≤ last →
      (∀ token ∈ tokens, token.start.offset < first ∨ last ≤ token.start.offset) ∧
      (input[last]? = some '\n' → (EndsLine tokens last ↔ bracketDepthAt tokens first = 0))) ∧
    (∀ offset early late, input[offset]? = some '\n' →
      tokensBefore tokens offset = early ++ late →
      bracketDepth early = 0 → (∀ token ∈ late, token.text.toList ∉ openingBrackets) →
      EndsLine tokens offset) := by
  intro input tokens
  have inputEq : (ofText file text).rest = input := takeWhile_ne_eq_take '\x00' text
  rw [← inputEq]
  refine ⟨?_, ?_, ?_, ?_⟩
  · intro offset
    exact ⟨EndsLine.outside, fun ⟨lineEnd, outside⟩ => endsLine_of_outside lineEnd outside⟩
  · intro offset
    exact foldl_bracketStep_nonneg _ (Int.le_refl 0)
  · intro first last isComment ordered
    refine ⟨no_start_in_comment isComment, ?_⟩
    intro lineEnd
    rw [← bracketDepthAt_comment isComment ordered]
    exact ⟨fun endsLine => endsLine.outside.2, endsLine_of_outside lineEnd⟩
  · intro offset early late lineEnd frontEq outside noneOpen
    apply endsLine_of_outside lineEnd
    rw [bracketDepthAt, frontEq, bracketDepth, List.foldl_append]
    unfold bracketDepth at outside
    rw [outside]
    exact foldl_bracketStep_zero noneOpen

end GraphCalc
