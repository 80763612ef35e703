import GraphCalc.Source.Span
import GraphCalc.Text.Quoted

/-!
# Tokens

The vocabulary of the language: names, numbers, operators, brackets and the
two marks that end a line of input.  Every kind has a numeric code; a code
that belongs to no kind is kept as it is, so that any code can be shown in a
diagnostic.
-/

namespace GraphCalc

/-- What a token is. -/
inductive Kind
  | illegal
  | eof
  | ident
  | number
  | macroName
  | assign
  | bang
  | plus
  | minus
  | star
  | slash
  | percent
  | lparen
  | lbrack
  | lbrace
  | comma
  | colon
  | rparen
  | rbrack
  | rbrace
  | equal
  | less
  | greater
  | lessEqual
  | greaterEqual
  | newline
  | other (code : Int)
deriving DecidableEq, Repr, Inhabited

namespace Kind

/-- The numeric code of a kind. -/
def code : Kind → Int
  | illegal => 0
  | eof => 1
  | ident => 3
  | number => 4
  | macroName => 5
  | assign => 8
  | bang => 9
  | plus => 10
  | minus => 11
  | star => 12
  | slash => 13
  | percent => 14
  | lparen => 15
  | lbrack => 16
  | lbrace => 17
  | comma => 18
  | colon => 19
  | rparen => 20
  | rbrack => 21
  | rbrace => 22
  | equal => 25
  | less => 26
  | greater => 27
  | lessEqual => 28
  | greaterEqual => 29
  | newline => 31
  | other code => code

/-- Every kind that has a name, in the order of the codes. -/
def named : List Kind :=
  [illegal, eof, ident, number, macroName, assign, bang, plus, minus, star,
    slash, percent, lparen, lbrack, lbrace, comma, colon, rparen, rbrack,
    rbrace, equal, less, greater, lessEqual, greaterEqual, newline]

/-- The kind with a given code. -/
def ofCode (code : Int) : Kind :=
  (named.find? fun kind => kind.code = code).getD (other code)

/-- How a diagnostic names a kind. -/
def name : Kind → String
  | illegal => "ILLEGAL"
  | eof => "EOF"
  | ident => "IDENT"
  | number => "NUMBER"
  | macroName => "MACRO"
  | assign => "="
  | bang => "!"
  | plus => "+"
  | minus => "-"
  | star => "*"
  | slash => "/"
  | percent => "%"
  | lparen => "("
  | lbrack => "["
  | lbrace => "\x7b"
  | comma => ","
  | colon => ":"
  | rparen => ")"
  | rbrack => "]"
  | rbrace => "\x7d"
  | equal => "=="
  | less => "<"
  | greater => ">"
  | lessEqual => "<="
  | greaterEqual => ">="
  | newline => "NEWLINE"
  | other code => "token(" ++ toString code ++ ")"

/-- Whether tokens of the kind differ in their text. -/
def isOpen : Kind → Bool
  | illegal | ident | number | macroName => true
  | _ => false

/-- Whether the kind may stand between the two sides of a condition.  A single
equality sign counts as a comparison there. -/
def isComparison : Kind → Bool
  | assign | equal | less | greater | lessEqual | greaterEqual => true
  | _ => false

/-- Whether the kind ends a logical line. -/
def endsLine : Kind → Bool
  | eof | newline => true
  | _ => false

/-- The number of open brackets after a token of the kind.  A closing bracket
without an opening one changes nothing. -/
def depthAfter : Kind → Nat → Nat
  | lparen, depth | lbrack, depth | lbrace, depth => depth + 1
  | rparen, depth | rbrack, depth | rbrace, depth => depth - 1
  | _, depth => depth

end Kind

/-- A token and the place where it starts. -/
structure Token where
  kind : Kind
  text : String
  file : String
  start : Position
deriving DecidableEq, Repr, Inhabited

namespace Token

/-- How many characters the token covers.  The mark after a macro's name
belongs to the token, though not to its text. -/
def width (token : Token) : Nat :=
  token.text.length + if token.kind = .macroName then 1 else 0

/-- The place just past the token. -/
def stop (token : Token) : Position :=
  token.start.right token.width

/-- The region the token covers. -/
def span (token : Token) : Span :=
  ⟨token.file, token.start, token.stop⟩

/-- From the start of one token to the stop of another. -/
def spanTo (first last : Token) : Span :=
  first.span.join last.span

/-- How a diagnostic names the token: its kind, with its text where that can
vary. -/
def describe (token : Token) : String :=
  if token.kind.isOpen then
    token.kind.name ++ "(" ++ Text.quote token.text ++ ")"
  else
    token.kind.name

end Token

end GraphCalc
