import GraphCalc.Syntax.Basic

/-!
# Compile errors and internal errors

A compile error is a mistake in a program.  An internal error is met only in
trees that no text gives.  The wording of every cause stands here.
-/

namespace GraphCalc

namespace CompileError

/-- What is wrong with an expression. -/
inductive Cause
  /-- No function has the name that is called. -/
  | unknownFunction (name : String)
  /-- A function is called with too many or too few arguments. -/
  | wrongArgCount (got expected : Int)
  /-- An expression has another type than its place demands. -/
  | typeMismatch (got expected : ValueType)
  /-- No variable has the name that is used. -/
  | undefinedVariable (name : String)
  /-- No macro has the name that is used. -/
  | undefinedMacro (name : String)
  /-- The mapping macro has fewer than two arguments. -/
  | badMapMacro
  /-- The first argument of the mapping macro is no bare name. -/
  | expectedFunction
  /-- A list is an item of a list. -/
  | noNestedList
  /-- A cause known by its code only. -/
  | other (code : Int)
deriving DecidableEq, Repr

/-- The name of the kind of a cause. -/
def Cause.kind : Cause → String
  | unknownFunction _ => "UnknownFunction"
  | wrongArgCount _ _ => "WrongArgCount"
  | typeMismatch _ _ => "TypeMismatch"
  | undefinedVariable _ => "UndefinedVariable"
  | undefinedMacro _ => "UndefinedMacro"
  | badMapMacro => "BadMapMacro"
  | expectedFunction => "ExpectedFunction"
  | noNestedList => "NoNestedList"
  | other code => "ErrorKind(" ++ toString code ++ ")"

/-- The wording of a cause. -/
def Cause.message : Cause → String
  | unknownFunction name => "Unknown function '" ++ name ++ "'"
  | wrongArgCount got expected =>
      "Expected " ++ toString expected ++ " arguments but got " ++ toString got
  | typeMismatch got expected =>
      "Expected type " ++ expected.name ++ " but got " ++ got.name
  | undefinedVariable name => "Undefined variable '" ++ name ++ "'"
  | undefinedMacro name => "Undefined macro '" ++ name ++ "'"
  | badMapMacro =>
      "The map! macro takes a function and then at least one list to pass as an argument"
  | expectedFunction => "Expected a function"
  | noNestedList => "Storing lists inside of lists is not allowed"
  | other code => (other code).kind

end CompileError

/-- A mistake in a program, and where it is. -/
structure CompileError where
  span : Span
  cause : CompileError.Cause
deriving DecidableEq, Repr

/-- The place and the wording of a compile error. -/
def CompileError.text (error : CompileError) : String :=
  error.span.text ++ ": " ++ error.cause.message

namespace InternalError

/-- What a tree holds that no text gives. -/
inductive Cause
  | mappedCall
  | mappedExpression
  | unaryOperator (op : UnaryOp)
  | binaryOperator (op : BinaryOp)
  | comparison (sign : Comparison)
  /-- A fault known by its wording only. -/
  | other (message : String)
deriving DecidableEq, Repr

/-- The wording of a cause. -/
def Cause.message : Cause → String
  | mappedCall => "mapped calls are not supported"
  | mappedExpression => "map expressions are not supported"
  | unaryOperator op => "unknown unary operator " ++ toString op.code
  | binaryOperator op => "no lowering for operator " ++ op.text
  | comparison sign => "unknown comparison " ++ sign.text
  | other message => message

end InternalError

/-- A fault in a tree that no text gives, and where it is. -/
structure InternalError where
  span : Span
  cause : InternalError.Cause
deriving DecidableEq, Repr

/-- The place and the wording of an internal error. -/
def InternalError.text (error : InternalError) : String :=
  "internal compiler error at " ++ error.span.text ++ ": " ++ error.cause.message

/-- Why a tree could not be compiled. -/
inductive Fault
  | compile (error : CompileError)
  | internal (error : InternalError)
deriving DecidableEq, Repr

namespace Fault

/-- The place and the wording of a fault. -/
def text : Fault → String
  | compile error => error.text
  | internal error => error.text

/-- A mistake of the program at a place. -/
def mistake (span : Span) (cause : CompileError.Cause) : Fault :=
  .compile ⟨span, cause⟩

/-- A fault of the tree at a place. -/
def broken (span : Span) (cause : InternalError.Cause) : Fault :=
  .internal ⟨span, cause⟩

end Fault

end GraphCalc
