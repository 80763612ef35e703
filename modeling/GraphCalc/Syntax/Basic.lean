import GraphCalc.Source.Span
import GraphCalc.ValueType

/-!
# Expressions and statements

The trees that a text is read into.  Every expression carries the span it was
read from.  Operators have numeric codes in recorded trees, and a code without
a meaning is kept, so a tree assembled by hand may hold operators that no text
has; the same goes for mapped calls and mapped expressions, which the language
has no words for.
-/

namespace GraphCalc

/-- An operator between two expressions. -/
inductive BinaryOp
  | add
  | subtract
  | multiply
  | divide
  | modulo
  | other (code : Int)
deriving DecidableEq, Repr, Inhabited

namespace BinaryOp

def code : BinaryOp → Int
  | add => 0
  | subtract => 1
  | multiply => 2
  | divide => 3
  | modulo => 4
  | other code => code

def ofCode (code : Int) : BinaryOp :=
  ([add, subtract, multiply, divide, modulo].find? fun op => op.code = code).getD
    (other code)

/-- The sign of an operator; a question mark stands for an unknown one. -/
def text : BinaryOp → String
  | add => "+"
  | subtract => "-"
  | multiply => "*"
  | divide => "/"
  | modulo => "%"
  | other _ => "?"

end BinaryOp

/-- An operator behind an expression. -/
inductive UnaryOp
  | factorial
  | other (code : Int)
deriving DecidableEq, Repr, Inhabited

namespace UnaryOp

def code : UnaryOp → Int
  | factorial => 0
  | other code => code

def ofCode (code : Int) : UnaryOp :=
  if code = 0 then factorial else other code

end UnaryOp

/-- The comparison in a condition.  There is no inequality. -/
inductive Comparison
  | equal
  | greater
  | less
  | greaterEqual
  | lessEqual
  | other (code : Int)
deriving DecidableEq, Repr, Inhabited

namespace Comparison

def code : Comparison → Int
  | equal => 0
  | greater => 1
  | less => 2
  | greaterEqual => 3
  | lessEqual => 4
  | other code => code

def ofCode (code : Int) : Comparison :=
  ([equal, greater, less, greaterEqual, lessEqual].find? fun cmp =>
    cmp.code = code).getD (other code)

/-- The sign of a comparison; a question mark stands for an unknown one. -/
def text : Comparison → String
  | equal => "=="
  | greater => ">"
  | less => "<"
  | greaterEqual => ">="
  | lessEqual => "<="
  | other _ => "?"

end Comparison

/-- How a call treats its arguments. -/
inductive CallMode
  | normal
  | mapped
  | other (code : Int)
deriving DecidableEq, Repr, Inhabited

namespace CallMode

def code : CallMode → Int
  | normal => 0
  | mapped => 1
  | other code => code

def ofCode (code : Int) : CallMode :=
  if code = 0 then normal else if code = 1 then mapped else other code

/-- How a mode is shown. -/
def text : CallMode → String
  | mapped => "map"
  | _ => "normal"

end CallMode

/-- One conditional part of a piecewise expression: if the comparison of the
two sides holds, the value is the result. -/
structure Clause (α : Type) where
  left : α
  comparison : Comparison
  right : α
  result : α
deriving Repr

/-- An expression and the spans of all its parts. -/
inductive Expr
  | number (span : Span) (value : String)
  | var (span : Span) (name : String)
  | binary (span : Span) (op : BinaryOp) (left right : Expr)
  | unary (span : Span) (op : UnaryOp) (operand : Expr)
  | call (span : Span) (mode : CallMode) (callee : String) (args : List Expr)
  | macroCall (span : Span) (name : String) (args : List Expr)
  | list (span : Span) (items : List Expr)
  | piecewise (span : Span) (first : Clause Expr) (rest : List (Clause Expr))
      (otherwise : Expr)
  | mapped (span : Span) (inner : Expr)
deriving Inhabited

/-- The region an expression was read from. -/
def Expr.span : Expr → Span
  | .number span _ => span
  | .var span _ => span
  | .binary span _ _ _ => span
  | .unary span _ _ => span
  | .call span _ _ _ => span
  | .macroCall span _ _ => span
  | .list span _ => span
  | .piecewise span _ _ _ => span
  | .mapped span _ => span

/-- A typed parameter of a function definition. -/
structure Param where
  span : Span
  name : String
  type : ValueType
deriving DecidableEq, Repr, Inhabited

/-- One line of a program. -/
inductive Stmt
  | expr (span : Span) (value : Expr)
  | define (span : Span) (name : String) (params : List Param)
      (returns : Option ValueType) (body : Expr)
deriving Inhabited

/-- The region a statement was read from. -/
def Stmt.span : Stmt → Span
  | .expr span _ => span
  | .define span _ _ _ _ => span

/-- The statements of a text, in order. -/
abbrev Program := List Stmt

/-- From the first statement to the last; nowhere for an empty program. -/
def Program.span (program : Program) : Span :=
  match program.head?, program.getLast? with
  | some first, some last => first.span.join last.span
  | _, _ => Span.nowhere

end GraphCalc
