import GraphCalc.Text.Listing
import GraphCalc.Token.Basic
import GraphCalc.ValueType

/-!
# Syntax errors

Why a line cannot be read, and where.  The wording of every cause stands here
and nowhere else.
-/

namespace GraphCalc

namespace SyntaxError

/-- What is wrong with a line. -/
inductive Cause
  /-- No expression starts with this token. -/
  | unexpectedStart (found : Token)
  /-- Only one kind of token can stand here, and another one does. -/
  | expectedKind (expected : Kind) (found : Token)
  /-- The statement is complete, but the line goes on. -/
  | expectedEnd (found : Token)
  /-- A function is named like a type. -/
  | reservedFunction (name : String)
  /-- A parameter is named like a type. -/
  | reservedParameter (name : String)
  /-- A name stands where a type belongs, but is no type's. -/
  | unknownType (name : String)
  /-- A minus sign stands before something that is no number. -/
  | misplacedMinus (found : Token)
  /-- A piecewise expression has a default value and nothing else. -/
  | noCondition
  /-- A piecewise expression goes on after a condition without a comma. -/
  | noDefault (found : Token)
deriving DecidableEq, Repr

/-- The wording of a cause. -/
def Cause.message : Cause → String
  | unexpectedStart found =>
      "unexpected " ++ found.describe ++ " at start of expression"
  | expectedKind expected found =>
      "expected next token to be " ++ expected.name ++ ", got " ++ found.describe ++
        " instead"
  | expectedEnd found => "expected end of statement, got " ++ found.describe
  | reservedFunction name =>
      "type name " ++ name ++ " cannot be used as a function name"
  | reservedParameter name =>
      "type name " ++ name ++ " cannot be used as a parameter name"
  | unknownType name => ValueType.unknownName name
  | misplacedMinus found =>
      "unary minus is only allowed before a number, got " ++ found.describe
  | noCondition => "piecewise needs at least one condition before the default value"
  | noDefault found =>
      "expected , and a default value after piecewise condition, got " ++
        found.describe

end SyntaxError

/-- Why a line cannot be read, and where. -/
structure SyntaxError where
  span : Span
  cause : SyntaxError.Cause
deriving DecidableEq, Repr

namespace SyntaxError

/-- The wording of the error, without its place. -/
def message (error : SyntaxError) : String :=
  error.cause.message

/-- The place and the wording of the error. -/
def text (error : SyntaxError) : String :=
  error.span.text ++ ": " ++ error.message

/-- Several errors as one text. -/
def listing (errors : List SyntaxError) : String :=
  Text.listing (errors.map text)

/-- An error at the token that should not be there. -/
def blaming (found : Token) (cause : Token → Cause) : SyntaxError :=
  ⟨found.span, cause found⟩

end SyntaxError

end GraphCalc
