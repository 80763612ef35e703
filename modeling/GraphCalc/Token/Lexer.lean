import GraphCalc.Token.Basic

/-!
# Reading tokens

A text is read from the front.  Layout is skipped first: blanks, comments, and
line ends inside brackets.  Then the longest token of its class is taken.
Which token is taken depends only on the characters ahead and on the number of
open brackets; positions are computed from the characters passed over.

A NUL character ends the text wherever it stands.
-/

namespace GraphCalc

namespace Lexeme

/-- Whether a character may start a name. -/
def isLetter (char : Char) : Bool :=
  char.isAlpha || char = '_'

/-- Whether a character may continue a name. -/
def isLetterOrDigit (char : Char) : Bool :=
  isLetter char || char.isDigit

/-- The kind of the token that consists of one character. -/
def symbol? : Char → Option Kind
  | '=' => some .assign
  | '<' => some .less
  | '>' => some .greater
  | '!' => some .bang
  | '+' => some .plus
  | '-' => some .minus
  | '*' => some .star
  | '/' => some .slash
  | '%' => some .percent
  | '(' => some .lparen
  | '[' => some .lbrack
  | '\x7b' => some .lbrace
  | ',' => some .comma
  | ':' => some .colon
  | ')' => some .rparen
  | ']' => some .rbrack
  | '\x7d' => some .rbrace
  | '\n' => some .newline
  | _ => none

/-- The kind of the token that consists of a character and an equality sign. -/
def withEquality? : Char → Option Kind
  | '=' => some .equal
  | '<' => some .lessEqual
  | '>' => some .greaterEqual
  | _ => none

end Lexeme

/-- A token without its place: its kind, its text and the characters after
it. -/
structure Lexeme where
  kind : Kind
  text : List Char
  rest : List Char
deriving DecidableEq, Repr

namespace Lexeme

/-- The characters a token covers: its text, and the mark after a macro's
name. -/
def covered (lexeme : Lexeme) : List Char :=
  if lexeme.kind = .macroName then lexeme.text ++ ['!'] else lexeme.text

/-- The name that starts with a letter.  A mark and an opening parenthesis
directly behind it make it the name of a macro. -/
def word (first : Char) (rest : List Char) : Lexeme :=
  let name := first :: rest.takeWhile isLetterOrDigit
  match rest.dropWhile isLetterOrDigit with
  | '!' :: '(' :: after => ⟨.macroName, name, '(' :: after⟩
  | after => ⟨.ident, name, after⟩

/-- The number that starts with a digit.  A point belongs to it only if a digit
follows. -/
def numeral (first : Char) (rest : List Char) : Lexeme :=
  let whole := first :: rest.takeWhile Char.isDigit
  match rest.dropWhile Char.isDigit with
  | '.' :: digit :: after =>
      if digit.isDigit then
        ⟨.number, whole ++ '.' :: digit :: after.takeWhile Char.isDigit,
          after.dropWhile Char.isDigit⟩
      else
        ⟨.number, whole, '.' :: digit :: after⟩
  | after => ⟨.number, whole, after⟩

/-- The token that starts with a character that is no layout. -/
def read (first : Char) (rest : List Char) : Lexeme :=
  if isLetter first then
    word first rest
  else if first.isDigit then
    numeral first rest
  else
    match withEquality? first, rest with
    | some kind, '=' :: after => ⟨kind, [first, '='], after⟩
    | _, _ => ⟨(symbol? first).getD .illegal, [first], rest⟩

theorem length_dropWhile_le (test : Char → Bool) (text : List Char) :
    (text.dropWhile test).length ≤ text.length :=
  (List.dropWhile_sublist test).length_le

theorem word_rest_le (first : Char) (rest : List Char) :
    (word first rest).rest.length ≤ rest.length := by
  have bound := length_dropWhile_le isLetterOrDigit rest
  unfold word
  split
  · rename_i after dropped
    rw [dropped] at bound
    simp only [List.length_cons] at bound ⊢
    omega
  · exact bound

theorem numeral_rest_le (first : Char) (rest : List Char) :
    (numeral first rest).rest.length ≤ rest.length := by
  have bound := length_dropWhile_le Char.isDigit rest
  unfold numeral
  split
  · rename_i digit after dropped
    rw [dropped] at bound
    simp only [List.length_cons] at bound
    split
    · have fraction := length_dropWhile_le Char.isDigit after
      simp only
      omega
    · simpa using bound
  · exact bound

/-- A token takes at least its first character. -/
theorem read_rest_le (first : Char) (rest : List Char) :
    (read first rest).rest.length ≤ rest.length := by
  unfold read
  split
  · exact word_rest_le first rest
  · split
    · exact numeral_rest_le first rest
    · split
      · simp
      · exact Nat.le_refl _

end Lexeme

/-- A place in a text that is being read: the characters ahead, the position of
the first of them, and the number of brackets still open. -/
structure Cursor where
  file : String
  rest : List Char
  place : Position
  depth : Nat
deriving DecidableEq, Repr

namespace Cursor

/-- The start of a text, which ends before its first NUL. -/
def ofText (file : String) (text : List Char) : Cursor :=
  ⟨file, text.takeWhile (· ≠ '\x00'), Position.start, 0⟩

/-- Split off the layout at the front of a text.  Inside a comment everything
up to the line end is layout; a line end is layout only inside brackets. -/
def spanLayout (depth : Nat) : Bool → List Char → List Char × List Char
  | _, [] => ([], [])
  | inComment, char :: rest =>
      if char = '\n' then
        if depth = 0 then
          ([], char :: rest)
        else
          let parts := spanLayout depth false rest
          (char :: parts.1, parts.2)
      else if inComment || char = '#' then
        let parts := spanLayout depth true rest
        (char :: parts.1, parts.2)
      else if char = ' ' || char = '\t' || char = '\r' then
        let parts := spanLayout depth false rest
        (char :: parts.1, parts.2)
      else
        ([], char :: rest)

/-- The next token and the place behind it.  At the end of the text the token
is the end mark, and the cursor stays. -/
def next (cursor : Cursor) : Token × Cursor :=
  let parts := spanLayout cursor.depth false cursor.rest
  let place := cursor.place.advance parts.1
  match parts.2 with
  | [] =>
      (⟨.eof, "", cursor.file, place⟩,
        { cursor with rest := [], place := place })
  | first :: rest =>
      let lexeme := Lexeme.read first rest
      (⟨lexeme.kind, String.ofList lexeme.text, cursor.file, place⟩,
        { cursor with
          rest := lexeme.rest
          place := place.advance lexeme.covered
          depth := lexeme.kind.depthAfter cursor.depth })

/-- Layout and what follows it make up the text. -/
theorem spanLayout_append (depth : Nat) (inComment : Bool) (text : List Char) :
    (spanLayout depth inComment text).1 ++ (spanLayout depth inComment text).2 =
      text := by
  induction text generalizing inComment with
  | nil => rfl
  | cons char rest ih =>
      unfold spanLayout
      split
      · split
        · rfl
        · simp [ih]
      · split
        · simp [ih]
        · split
          · simp [ih]
          · rfl

/-- A token other than the end mark leaves fewer characters ahead. -/
theorem next_rest_lt (cursor : Cursor) (notEnd : cursor.next.1.kind ≠ .eof) :
    cursor.next.2.rest.length < cursor.rest.length := by
  have whole := congrArg List.length
    (spanLayout_append cursor.depth false cursor.rest)
  unfold next at notEnd ⊢
  generalize spanLayout cursor.depth false cursor.rest = parts at *
  obtain ⟨layout, ahead⟩ := parts
  cases ahead with
  | nil => simp at notEnd
  | cons first rest =>
      have bound := Lexeme.read_rest_le first rest
      simp only [List.length_append, List.length_cons] at whole ⊢
      omega

/-- All tokens ahead, up to and including the end mark. -/
def tokens (cursor : Cursor) : List Token :=
  if cursor.next.1.kind = .eof then
    [cursor.next.1]
  else
    cursor.next.1 :: cursor.next.2.tokens
termination_by cursor.rest.length
decreasing_by exact next_rest_lt cursor (by assumption)

end Cursor

/-- The tokens of a text, up to and including the end mark. -/
def tokenize (file : String) (text : List Char) : List Token :=
  (Cursor.ofText file text).tokens

end GraphCalc
