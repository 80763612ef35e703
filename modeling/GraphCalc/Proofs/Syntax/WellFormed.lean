import GraphCalc.Proofs.Token.Scan
import GraphCalc.Syntax.Basic

/-!
# Well-formed programs

Trees can hold names, numbers, operators and modes that no text has.  A program
is well-formed if it has none of these, and if its definitions introduce no
name that is reserved for a type.
-/

namespace GraphCalc

/-- The operators that have a sign. -/
def BinaryOp.known : List BinaryOp :=
  [add, subtract, multiply, divide, modulo]

/-- The comparisons that have a sign. -/
def Comparison.known : List Comparison :=
  [equal, greater, less, greaterEqual, lessEqual]

mutual

/-- Whether a tree has only names, numbers, operators and calls that can be
written. -/
def Expr.WellFormed : Expr → Prop
  | .number _ value => Lexeme.IsSignedNumeral value.toList
  | .var _ name => Lexeme.IsName name.toList
  | .binary _ op left right => op ∈ BinaryOp.known ∧ left.WellFormed ∧ right.WellFormed
  | .unary _ op operand => op = .factorial ∧ operand.WellFormed
  | .call _ mode callee args =>
      mode = .normal ∧ Lexeme.IsName callee.toList ∧ Expr.AllWellFormed args
  | .macroCall _ name args => Lexeme.IsName name.toList ∧ Expr.AllWellFormed args
  | .list _ items => Expr.AllWellFormed items
  | .piecewise _ first rest otherwise =>
      Clause.WellFormed first ∧ Clause.AllWellFormed rest ∧ otherwise.WellFormed
  | .mapped _ _ => False

def Expr.AllWellFormed : List Expr → Prop
  | [] => True
  | first :: rest => first.WellFormed ∧ Expr.AllWellFormed rest

def Clause.WellFormed : Clause Expr → Prop
  | ⟨left, comparison, right, result⟩ =>
      comparison ∈ Comparison.known ∧ left.WellFormed ∧ right.WellFormed ∧ result.WellFormed

def Clause.AllWellFormed : List (Clause Expr) → Prop
  | [] => True
  | first :: rest => Clause.WellFormed first ∧ Clause.AllWellFormed rest

end

/-- A name that a definition may introduce. -/
def IsFreeName (name : String) : Prop :=
  Lexeme.IsName name.toList ∧ name ∉ ValueType.names

/-- The types that have a name. -/
def ValueType.known : List ValueType :=
  [number, list]

def Param.WellFormed (param : Param) : Prop :=
  IsFreeName param.name ∧ param.type ∈ ValueType.known

/-- Whether a statement can be written. -/
def Stmt.WellFormed : Stmt → Prop
  | .expr _ value => value.WellFormed
  | .define _ name params returns body =>
      IsFreeName name ∧ (∀ param ∈ params, param.WellFormed) ∧
        (∀ type ∈ returns, type ∈ ValueType.known) ∧ body.WellFormed

/-- Whether every statement of a program can be written. -/
def Program.WellFormed (program : Program) : Prop :=
  ∀ stmt ∈ program, stmt.WellFormed

end GraphCalc
