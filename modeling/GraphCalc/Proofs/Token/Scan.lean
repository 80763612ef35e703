import GraphCalc.Token.Lexer

/-!
# Reading tokens without their places

Which tokens a text has depends on its characters and on the number of open
brackets, but not on the place where it is read.  Here the kinds and texts of
the tokens ahead are followed without their places: what is read at a symbol,
at a name and at a number, and which shapes the texts of tokens can have.
-/

namespace GraphCalc

namespace Lexeme

/-! ## Shapes of names and numbers -/

/-- A letter, and letters and digits behind it. -/
def IsName : List Char → Prop
  | [] => False
  | first :: rest => isLetter first = true ∧ ∀ char ∈ rest, isLetterOrDigit char = true

instance (text : List Char) : Decidable (IsName text) :=
  match text with
  | [] => inferInstanceAs (Decidable False)
  | first :: rest =>
      decidable_of_iff (isLetter first = true ∧ rest.all isLetterOrDigit = true) (by simp [IsName])

/-- At least one digit, and digits only. -/
def IsDigits (text : List Char) : Prop :=
  text ≠ [] ∧ ∀ char ∈ text, char.isDigit = true

instance (text : List Char) : Decidable (IsDigits text) :=
  decidable_of_iff (text ≠ [] ∧ text.all Char.isDigit = true) (by simp [IsDigits])

/-- Digits, possibly with a point and further digits behind them. -/
inductive IsNumeral : List Char → Prop
  | whole {digits : List Char} (shape : IsDigits digits) : IsNumeral digits
  | decimal {digits fraction : List Char} (shape : IsDigits digits)
      (fractionShape : IsDigits fraction) : IsNumeral (digits ++ '.' :: fraction)

/-- A number, possibly with a minus sign in front. -/
inductive IsSignedNumeral : List Char → Prop
  | plain {text : List Char} (shape : IsNumeral text) : IsSignedNumeral text
  | negative {text : List Char} (shape : IsNumeral text) : IsSignedNumeral ('-' :: text)

theorem isDigit_iff (char : Char) :
    char.isDigit = true ↔ 48 ≤ char.toNat ∧ char.toNat ≤ 57 := by
  simp only [Char.isDigit, Bool.and_eq_true, decide_eq_true_eq, ge_iff_le,
    UInt32.le_iff_toNat_le]
  rfl

theorem isLetter_iff (char : Char) :
    isLetter char = true ↔
      (65 ≤ char.toNat ∧ char.toNat ≤ 90) ∨ (97 ≤ char.toNat ∧ char.toNat ≤ 122) ∨
        char.toNat = 95 := by
  delta isLetter Char.isAlpha Char.isUpper Char.isLower
  simp only [Bool.or_eq_true, Bool.and_eq_true, decide_eq_true_eq, ge_iff_le,
    UInt32.le_iff_toNat_le, or_assoc, ← Char.toNat_inj]
  rfl

theorem isLetter_eq_false_of_isDigit {char : Char} (digit : char.isDigit = true) :
    isLetter char = false := by
  rw [isDigit_iff] at digit
  rw [← Bool.not_eq_true, isLetter_iff]
  omega

theorem IsNumeral.cons {text : List Char} (shape : IsNumeral text) :
    ∃ first rest, text = first :: rest ∧ first.isDigit = true := by
  cases shape with
  | whole shape =>
      cases text with
      | nil => exact absurd rfl shape.1
      | cons first rest => exact ⟨first, rest, rfl, shape.2 first List.mem_cons_self⟩
  | @decimal digits fraction shape fractionShape =>
      cases digits with
      | nil => exact absurd rfl shape.1
      | cons first rest => exact ⟨first, _, rfl, shape.2 first List.mem_cons_self⟩

/-! ## Reading names and numbers -/

theorem takeWhile_append_of_stop {α : Type} {test : α → Bool} {text after : List α}
    (passes : ∀ char ∈ text, test char = true) (stops : ∀ char ∈ after.head?, test char = false) :
    (text ++ after).takeWhile test = text := by
  rw [List.takeWhile_append_of_pos passes]
  cases after with
  | nil => simp
  | cons char rest => simp [stops char rfl]

theorem dropWhile_append_of_stop {α : Type} {test : α → Bool} {text after : List α}
    (passes : ∀ char ∈ text, test char = true) (stops : ∀ char ∈ after.head?, test char = false) :
    (text ++ after).dropWhile test = after := by
  rw [List.dropWhile_append_of_pos passes]
  cases after with
  | nil => rfl
  | cons char rest => simp [stops char rfl]

theorem read_of_isLetter {first : Char} (letter : isLetter first = true) (rest : List Char) :
    read first rest = word first rest :=
  if_pos letter

theorem read_of_isDigit {first : Char} (digit : first.isDigit = true) (rest : List Char) :
    read first rest = numeral first rest := by
  have noLetter : ¬isLetter first = true := by
    rw [isLetter_eq_false_of_isDigit digit]
    decide
  exact (if_neg noLetter).trans (if_pos digit)

/-- A name ends where no letter or digit follows, unless it is a macro's. -/
theorem read_name {first : Char} {rest after : List Char} (shape : IsName (first :: rest))
    (stops : ∀ char ∈ after.head?, isLetterOrDigit char = false)
    (noMacro : ∀ behind, after ≠ '!' :: '(' :: behind) :
    read first (rest ++ after) = ⟨.ident, first :: rest, after⟩ := by
  rw [read_of_isLetter shape.1]
  unfold word
  rw [takeWhile_append_of_stop shape.2 stops, dropWhile_append_of_stop shape.2 stops]
  split
  · exact absurd rfl (noMacro _)
  · rfl

/-- A mark and an opening parenthesis behind a name make it a macro's. -/
theorem read_macro {first : Char} {rest : List Char} (shape : IsName (first :: rest))
    (after : List Char) :
    read first (rest ++ '!' :: '(' :: after) = ⟨.macroName, first :: rest, '(' :: after⟩ := by
  have stops : ∀ char ∈ ('!' :: '(' :: after).head?, isLetterOrDigit char = false := by
    rintro char ⟨⟩
    decide
  rw [read_of_isLetter shape.1]
  unfold word
  rw [takeWhile_append_of_stop shape.2 stops, dropWhile_append_of_stop shape.2 stops]
  rfl

/-- A number without a fraction ends where no digit follows, and no point with a digit
behind it. -/
theorem read_digits {first : Char} {rest after : List Char} (shape : IsDigits (first :: rest))
    (stops : ∀ char ∈ after.head?, char.isDigit = false)
    (noFraction : ∀ digit behind, after = '.' :: digit :: behind → digit.isDigit = false) :
    read first (rest ++ after) = ⟨.number, first :: rest, after⟩ := by
  have digits := List.forall_mem_cons.1 shape.2
  rw [read_of_isDigit digits.1]
  unfold numeral
  rw [takeWhile_append_of_stop digits.2 stops, dropWhile_append_of_stop digits.2 stops]
  split
  · rename_i digit behind
    rw [noFraction digit behind rfl]
    rfl
  · rfl

/-- A number with a fraction ends where no digit follows. -/
theorem read_decimal {first : Char} {rest fraction after : List Char}
    (shape : IsDigits (first :: rest)) (fractionShape : IsDigits fraction)
    (stops : ∀ char ∈ after.head?, char.isDigit = false) :
    read first (rest ++ '.' :: fraction ++ after) =
      ⟨.number, first :: (rest ++ '.' :: fraction), after⟩ := by
  have digits := List.forall_mem_cons.1 shape.2
  have pointStops : ∀ char ∈ ('.' :: (fraction ++ after)).head?, char.isDigit = false := by
    rintro char ⟨⟩
    decide
  rw [read_of_isDigit digits.1, List.append_assoc, List.cons_append]
  unfold numeral
  rw [takeWhile_append_of_stop digits.2 pointStops, dropWhile_append_of_stop digits.2 pointStops]
  cases fraction with
  | nil => exact absurd rfl fractionShape.1
  | cons second fraction =>
      have fractionDigits := List.forall_mem_cons.1 fractionShape.2
      simp only [List.cons_append]
      rw [if_pos fractionDigits.1, takeWhile_append_of_stop fractionDigits.2 stops,
        dropWhile_append_of_stop fractionDigits.2 stops]

/-- A number ends where neither a digit nor a point follows. -/
theorem read_numeral {first : Char} {rest after : List Char} (shape : IsNumeral (first :: rest))
    (stops : ∀ char ∈ after.head?, char.isDigit = false)
    (noPoint : ∀ behind, after ≠ '.' :: behind) :
    read first (rest ++ after) = ⟨.number, first :: rest, after⟩ := by
  generalize textEq : first :: rest = text at shape
  cases shape with
  | whole shape =>
      subst textEq
      apply read_digits shape stops
      intro digit behind isPoint
      exact absurd isPoint (noPoint _)
  | @decimal whole fraction shape fractionShape =>
      cases whole with
      | nil => exact absurd rfl shape.1
      | cons digit whole =>
          rw [List.cons_append] at textEq
          obtain ⟨rfl, rfl⟩ := List.cons.inj textEq
          exact read_decimal shape fractionShape stops

theorem not_word_of_symbol? {char : Char} {kind : Kind} (symbolEq : symbol? char = some kind) :
    isLetter char = false ∧ char.isDigit = false := by
  unfold symbol? at symbolEq
  split at symbolEq
  all_goals first | decide | cases symbolEq

/-- A symbol that starts no longer one is read alone. -/
theorem read_symbol {first : Char} {kind : Kind} (rest : List Char)
    (symbolEq : symbol? first = some kind) (alone : withEquality? first = none) :
    read first rest = ⟨kind, [first], rest⟩ := by
  obtain ⟨noLetter, noDigit⟩ := not_word_of_symbol? symbolEq
  unfold read
  rw [noLetter, noDigit, symbolEq, alone]
  rfl

/-! ## Shapes of what is read -/

/-- Only names, macros and numbers differ in their texts. -/
def Shaped (kind : Kind) (text : List Char) : Prop :=
  (kind = .ident ∨ kind = .macroName → IsName text) ∧ (kind = .number → IsNumeral text)

theorem forall_mem_takeWhile (test : Char → Bool) (text : List Char) :
    ∀ char ∈ text.takeWhile test, test char = true :=
  List.all_eq_true.1 List.all_takeWhile

theorem shaped_word {first : Char} (letter : isLetter first = true) (rest : List Char) :
    Shaped (word first rest).kind (word first rest).text := by
  have isName : IsName (first :: rest.takeWhile isLetterOrDigit) :=
    ⟨letter, forall_mem_takeWhile _ _⟩
  unfold word
  split
  · exact ⟨fun _ => isName, nofun⟩
  · exact ⟨fun _ => isName, nofun⟩

theorem shaped_numeral {first : Char} (digit : first.isDigit = true) (rest : List Char) :
    Shaped (numeral first rest).kind (numeral first rest).text := by
  have whole : IsDigits (first :: rest.takeWhile Char.isDigit) :=
    ⟨List.cons_ne_nil _ _, List.forall_mem_cons.2 ⟨digit, forall_mem_takeWhile _ _⟩⟩
  unfold numeral
  split
  · split
    · rename_i secondDigit
      exact ⟨nofun, fun _ => .decimal whole ⟨List.cons_ne_nil _ _,
        List.forall_mem_cons.2 ⟨secondDigit, forall_mem_takeWhile _ _⟩⟩⟩
    · exact ⟨nofun, fun _ => .whole whole⟩
  · exact ⟨nofun, fun _ => .whole whole⟩

/-- A symbol is neither a name nor a number nor an end mark. -/
theorem kind_of_symbol? {char : Char} {kind : Kind}
    (symbolEq : symbol? char = some kind ∨ withEquality? char = some kind) :
    kind ∉ [.ident, .macroName, .number, .eof] := by
  rcases symbolEq with symbolEq | symbolEq
  · unfold symbol? at symbolEq
    split at symbolEq
    all_goals
      cases symbolEq
      try decide
  · unfold withEquality? at symbolEq
    split at symbolEq
    all_goals
      cases symbolEq
      try decide

/-- What is read is a name, a number or a symbol. -/
theorem read_cases (first : Char) (rest : List Char) :
    (isLetter first = true ∧ read first rest = word first rest) ∨
      (first.isDigit = true ∧ read first rest = numeral first rest) ∨
      (read first rest).kind ∉ [.ident, .macroName, .number, .eof] := by
  by_cases letter : isLetter first = true
  · exact .inl ⟨letter, read_of_isLetter letter rest⟩
  · by_cases digit : first.isDigit = true
    · exact .inr (.inl ⟨digit, read_of_isDigit digit rest⟩)
    · refine .inr (.inr ?_)
      unfold read
      rw [if_neg letter, if_neg digit]
      split
      · rename_i longer
        exact kind_of_symbol? (.inr longer)
      · cases symbolEq : symbol? first with
        | none => simp
        | some kind => exact kind_of_symbol? (.inl symbolEq)

theorem shaped_read (first : Char) (rest : List Char) :
    Shaped (read first rest).kind (read first rest).text := by
  rcases read_cases first rest with ⟨letter, readEq⟩ | ⟨digit, readEq⟩ | plain
  · rw [readEq]
    exact shaped_word letter rest
  · rw [readEq]
    exact shaped_numeral digit rest
  · simp only [List.mem_cons, List.not_mem_nil, or_false, not_or] at plain
    exact ⟨fun named => absurd named (not_or.2 ⟨plain.1, plain.2.1⟩),
      fun number => absurd number plain.2.2.1⟩

theorem kind_read_ne_eof (first : Char) (rest : List Char) : (read first rest).kind ≠ .eof := by
  rcases read_cases first rest with ⟨-, readEq⟩ | ⟨-, readEq⟩ | plain
  · rw [readEq]
    unfold word
    split
    · exact nofun
    · exact nofun
  · rw [readEq]
    unfold numeral
    split
    · split
      · exact nofun
      · exact nofun
    · exact nofun
  · intro isEnd
    rw [isEnd] at plain
    exact plain (by decide)

end Lexeme

/-! ## The tokens ahead -/

/-- A kind and a text. -/
abbrev Content := Kind × List Char

/-- The kind and the text of a token. -/
def Token.content (token : Token) : Content :=
  (token.kind, token.text.toList)

theorem Token.content_eq_iff (token : Token) (kind : Kind) (text : List Char) :
    token.content = (kind, text) ↔ token.kind = kind ∧ token.text.toList = text :=
  Prod.ext_iff

namespace Cursor

theorem next_of_end {cursor : Cursor}
    (atEnd : (spanLayout cursor.depth false cursor.rest).2 = []) :
    cursor.next.1.content = (.eof, []) := by
  unfold next
  simp only [atEnd]
  rfl

theorem next_of_read {cursor : Cursor} {first : Char} {rest : List Char}
    (ahead : (spanLayout cursor.depth false cursor.rest).2 = first :: rest) :
    cursor.next.1.content = ((Lexeme.read first rest).kind, (Lexeme.read first rest).text) ∧
      cursor.next.2.rest = (Lexeme.read first rest).rest ∧
      cursor.next.2.depth = (Lexeme.read first rest).kind.depthAfter cursor.depth := by
  unfold next
  simp only [ahead]
  simp [Token.content]

theorem tokens_of_end {cursor : Cursor}
    (atEnd : (spanLayout cursor.depth false cursor.rest).2 = []) :
    cursor.tokens = [cursor.next.1] := by
  have isEnd := ((Token.content_eq_iff _ _ _).1 (next_of_end atEnd)).1
  rw [tokens, if_pos isEnd]

theorem kind_next_ne_eof {cursor : Cursor} {first : Char} {rest : List Char}
    (ahead : (spanLayout cursor.depth false cursor.rest).2 = first :: rest) :
    cursor.next.1.kind ≠ .eof := by
  rw [((Token.content_eq_iff _ _ _).1 (next_of_read ahead).1).1]
  exact Lexeme.kind_read_ne_eof first rest

theorem tokens_of_read {cursor : Cursor} {first : Char} {rest : List Char}
    (ahead : (spanLayout cursor.depth false cursor.rest).2 = first :: rest) :
    cursor.tokens = cursor.next.1 :: cursor.next.2.tokens := by
  rw [tokens, if_neg (kind_next_ne_eof ahead)]

/-- The kinds and texts of the tokens ahead do not depend on the place. -/
theorem content_tokens_congr (left right : Cursor) (restEq : left.rest = right.rest)
    (depthEq : left.depth = right.depth) :
    left.tokens.map Token.content = right.tokens.map Token.content := by
  cases ahead : (spanLayout left.depth false left.rest).2 with
  | nil =>
      have rightAhead := ahead
      rw [restEq, depthEq] at rightAhead
      rw [tokens_of_end ahead, tokens_of_end rightAhead, List.map_singleton, List.map_singleton,
        next_of_end ahead, next_of_end rightAhead]
  | cons first rest =>
      have rightAhead := ahead
      rw [restEq, depthEq] at rightAhead
      obtain ⟨leftContent, leftRest, leftDepth⟩ := next_of_read ahead
      obtain ⟨rightContent, rightRest, rightDepth⟩ := next_of_read rightAhead
      have shorter := next_rest_lt left (kind_next_ne_eof ahead)
      rw [tokens_of_read ahead, tokens_of_read rightAhead, List.map_cons, List.map_cons,
        leftContent, rightContent, content_tokens_congr left.next.2 right.next.2
          (leftRest.trans rightRest.symm) (by rw [leftDepth, rightDepth, depthEq])]
termination_by left.rest.length

/-- Names, macros and numbers among the tokens ahead have the shapes of
such. -/
theorem shaped_tokens (cursor : Cursor) :
    ∀ token ∈ cursor.tokens, Lexeme.Shaped token.kind token.text.toList := by
  cases ahead : (spanLayout cursor.depth false cursor.rest).2 with
  | nil =>
      obtain ⟨kindEq, -⟩ := (Token.content_eq_iff _ _ _).1 (next_of_end ahead)
      rw [tokens_of_end ahead, List.forall_mem_singleton, kindEq]
      exact ⟨nofun, nofun⟩
  | cons first rest =>
      have shorter := next_rest_lt cursor (kind_next_ne_eof ahead)
      obtain ⟨kindEq, textEq⟩ := (Token.content_eq_iff _ _ _).1 (next_of_read ahead).1
      rw [tokens_of_read ahead, List.forall_mem_cons, kindEq, textEq]
      exact ⟨Lexeme.shaped_read first rest, shaped_tokens cursor.next.2⟩
termination_by cursor.rest.length

end Cursor

/-- The kinds and texts of the tokens of a text that is read inside some
brackets. -/
def scan (depth : Nat) (text : List Char) : List Content :=
  (Cursor.mk "" text Position.start depth).tokens.map Token.content

theorem content_tokens (cursor : Cursor) :
    cursor.tokens.map Token.content = scan cursor.depth cursor.rest :=
  Cursor.content_tokens_congr _ _ rfl rfl

theorem scan_of_end {depth : Nat} {text : List Char}
    (atEnd : (Cursor.spanLayout depth false text).2 = []) : scan depth text = [(.eof, [])] := by
  rw [scan, Cursor.tokens_of_end atEnd, List.map_singleton, Cursor.next_of_end atEnd]

theorem scan_of_read {depth : Nat} {text rest : List Char} {first : Char}
    (ahead : (Cursor.spanLayout depth false text).2 = first :: rest) :
    scan depth text =
      ((Lexeme.read first rest).kind, (Lexeme.read first rest).text) ::
        scan ((Lexeme.read first rest).kind.depthAfter depth) (Lexeme.read first rest).rest := by
  obtain ⟨contentEq, restEq, depthEq⟩ := Cursor.next_of_read
    (show (Cursor.spanLayout (Cursor.mk "" text Position.start depth).depth false _).2 = _
      from ahead)
  rw [scan, Cursor.tokens_of_read ahead, List.map_cons, contentEq, content_tokens, restEq,
    depthEq]

/-! ### Steps of the scan -/

theorem scan_nil (depth : Nat) : scan depth [] = [(.eof, [])] :=
  scan_of_end rfl

theorem scan_blank (depth : Nat) (text : List Char) :
    scan depth (' ' :: text) = scan depth text := by
  have sameAhead : (Cursor.spanLayout depth false (' ' :: text)).2 =
      (Cursor.spanLayout depth false text).2 := by
    simp [Cursor.spanLayout]
  cases ahead : (Cursor.spanLayout depth false text).2 with
  | nil => rw [scan_of_end ahead, scan_of_end (sameAhead.trans ahead)]
  | cons first rest => rw [scan_of_read ahead, scan_of_read (sameAhead.trans ahead)]

/-- The characters that layout can start with. -/
def layoutStarts : List Char :=
  [' ', '\t', '\r', '#', '\n']

theorem not_mem_layoutStarts {test : Char → Bool} {char : Char}
    (excluded : layoutStarts.any test = false) (passes : test char = true) :
    char ∉ layoutStarts := by
  intro isLayout
  exact List.any_eq_false.1 excluded char isLayout passes

/-- A character that is no layout starts a token. -/
theorem scan_of_start {depth : Nat} {first : Char} {rest : List Char} {lexeme : Lexeme}
    (noLayout : first ∉ layoutStarts ∨ first = '\n' ∧ depth = 0)
    (readEq : Lexeme.read first rest = lexeme) :
    scan depth (first :: rest) =
      (lexeme.kind, lexeme.text) :: scan (lexeme.kind.depthAfter depth) lexeme.rest := by
  subst readEq
  apply scan_of_read
  rcases noLayout with noLayout | ⟨rfl, rfl⟩
  · simp only [layoutStarts, List.mem_cons, List.not_mem_nil, or_false, not_or] at noLayout
    simp [Cursor.spanLayout, noLayout]
  · rfl

theorem scan_name {name after : List Char} (depth : Nat) (shape : Lexeme.IsName name)
    (stops : ∀ char ∈ after.head?, Lexeme.isLetterOrDigit char = false)
    (noMacro : ∀ behind, after ≠ '!' :: '(' :: behind) :
    scan depth (name ++ after) = (.ident, name) :: scan depth after := by
  cases name with
  | nil => exact absurd shape id
  | cons first rest =>
      exact scan_of_start (.inl (not_mem_layoutStarts (by decide) shape.1))
        (Lexeme.read_name shape stops noMacro)

theorem scan_macro {name : List Char} (depth : Nat) (shape : Lexeme.IsName name)
    (after : List Char) :
    scan depth (name ++ '!' :: '(' :: after) = (.macroName, name) :: scan depth ('(' :: after) := by
  cases name with
  | nil => exact absurd shape id
  | cons first rest =>
      exact scan_of_start (.inl (not_mem_layoutStarts (by decide) shape.1))
        (Lexeme.read_macro shape after)

theorem scan_numeral {digits after : List Char} (depth : Nat) (shape : Lexeme.IsNumeral digits)
    (stops : ∀ char ∈ after.head?, char.isDigit = false)
    (noPoint : ∀ behind, after ≠ '.' :: behind) :
    scan depth (digits ++ after) = (.number, digits) :: scan depth after := by
  obtain ⟨first, rest, rfl, digit⟩ := shape.cons
  exact scan_of_start (.inl (not_mem_layoutStarts (by decide) digit))
    (Lexeme.read_numeral shape stops noPoint)

theorem scan_symbol (depth : Nat) (first : Char) (kind : Kind) (rest : List Char)
    (isSymbol : Lexeme.symbol? first = some kind ∧ Lexeme.withEquality? first = none ∧
      first ∉ layoutStarts) :
    scan depth (first :: rest) = (kind, [first]) :: scan (kind.depthAfter depth) rest :=
  scan_of_start (.inl isSymbol.2.2) (Lexeme.read_symbol rest isSymbol.1 isSymbol.2.1)

theorem scan_newline (rest : List Char) :
    scan 0 ('\n' :: rest) = (.newline, ['\n']) :: scan 0 rest :=
  scan_of_start (.inr ⟨rfl, rfl⟩) rfl

end GraphCalc
