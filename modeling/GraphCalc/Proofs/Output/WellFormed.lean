import GraphCalc.Compile.Signature
import GraphCalc.Output.Formula
import GraphCalc.Proofs.Syntax.WellFormed

/-!
# Well-formed formulas

A well-formed formula is an expression whose names, numbers and operators the
calculator knows: nothing in it is missing, and it holds no equation.  Names
occur in a formula in two ways, as variables and as functions that a program
defines; builtin functions are written differently and are not among them.
-/

namespace GraphCalc

/-- The operators that have a sign. -/
def Arithmetic.known : List Arithmetic :=
  [add, subtract, multiply, divide]

/-- The names of the builtin functions. -/
def Builtin.names : List String :=
  functions.map Prod.fst

mutual

/-- Whether a formula is an expression with only names, numbers, operators and
calls that the calculator knows. -/
def Formula.WellFormed : Formula → Prop
  | .number value => Lexeme.IsSignedNumeral value.toList
  | .var name => Lexeme.IsName name.toList
  | .binary op left right => op ∈ Arithmetic.known ∧ left.WellFormed ∧ right.WellFormed
  | .factorial operand => operand.WellFormed
  | .call callee true args => callee ∈ Builtin.names ∧ Formula.AllWellFormed args
  | .call callee false args => Lexeme.IsName callee.toList ∧ Formula.AllWellFormed args
  | .list items => Formula.AllWellFormed items
  | .piecewise first rest otherwise =>
      Clause.FormulaWellFormed first ∧ Clause.AllFormulaWellFormed rest ∧ otherwise.WellFormed
  | .assign _ _ | .define _ _ _ | .missing => False

def Formula.AllWellFormed : List Formula → Prop
  | [] => True
  | first :: rest => first.WellFormed ∧ Formula.AllWellFormed rest

def Clause.FormulaWellFormed : Clause Formula → Prop
  | ⟨left, comparison, right, result⟩ =>
      comparison ∈ Comparison.known ∧ left.WellFormed ∧ right.WellFormed ∧ result.WellFormed

def Clause.AllFormulaWellFormed : List (Clause Formula) → Prop
  | [] => True
  | first :: rest => Clause.FormulaWellFormed first ∧ Clause.AllFormulaWellFormed rest

end

/-- A name, as that of a variable or of a function that a program defines. -/
inductive NameUse
  | var (name : String)
  | function (name : String)
deriving DecidableEq

mutual

/-- The names in a formula and how they are used. -/
def Formula.uses : Formula → List NameUse
  | .number _ | .missing => []
  | .var name => [.var name]
  | .binary _ left right | .assign left right => left.uses ++ right.uses
  | .factorial operand => operand.uses
  | .call _ true args => Formula.usesAll args
  | .call callee false args => .function callee :: Formula.usesAll args
  | .list items => Formula.usesAll items
  | .define name params body => .function name :: (params.map .var ++ body.uses)
  | .piecewise first rest otherwise =>
      Clause.uses first ++ (Clause.usesAll rest ++ otherwise.uses)

def Formula.usesAll : List Formula → List NameUse
  | [] => []
  | first :: rest => first.uses ++ Formula.usesAll rest

def Clause.uses : Clause Formula → List NameUse
  | ⟨left, _, right, result⟩ => left.uses ++ (right.uses ++ result.uses)

def Clause.usesAll : List (Clause Formula) → List NameUse
  | [] => []
  | first :: rest => Clause.uses first ++ Clause.usesAll rest

end

/-- Whether no name is used in both ways. -/
def NameUse.Apart (uses : List NameUse) : Prop :=
  ∀ name, .var name ∈ uses → .function name ∉ uses

end GraphCalc
