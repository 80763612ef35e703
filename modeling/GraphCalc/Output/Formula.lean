import GraphCalc.Syntax.Basic

/-!
# Formulas

The trees that are shown by a graphing calculator.  They carry neither spans
nor types.  A tree assembled by hand may lack a part or hold an operator the
calculator does not have; such trees exist as values, but have no text.
-/

namespace GraphCalc

/-- An arithmetic operator of the calculator. -/
inductive Arithmetic
  | add
  | subtract
  | multiply
  | divide
  | other (code : Int)
deriving DecidableEq, Repr, Inhabited

namespace Arithmetic

def code : Arithmetic → Int
  | add => 0
  | subtract => 1
  | multiply => 2
  | divide => 3
  | other code => code

def ofCode (code : Int) : Arithmetic :=
  ([add, subtract, multiply, divide].find? fun op => op.code = code).getD (other code)

end Arithmetic

/-- What a graphing calculator shows on one line, or a part of it. -/
inductive Formula
  | number (value : String)
  | var (name : String)
  | binary (op : Arithmetic) (left right : Formula)
  | factorial (operand : Formula)
  | call (callee : String) (builtin : Bool) (args : List Formula)
  | list (items : List Formula)
  | assign (left right : Formula)
  | define (name : String) (params : List String) (body : Formula)
  | piecewise (first : Clause Formula) (rest : List (Clause Formula))
      (otherwise : Formula)
  | missing
deriving Inhabited

namespace Formula

/-- Whether a formula is a sum or a difference. -/
def isSum : Formula → Bool
  | binary .add _ _ | binary .subtract _ _ => true
  | _ => false

/-- Whether a formula consists of an operator and its operands. -/
def isOperation : Formula → Bool
  | binary _ _ _ | factorial _ => true
  | _ => false

end Formula

end GraphCalc
