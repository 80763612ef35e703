import GraphCalc.ValueType

/-!
# Signatures and builtin functions

A signature lists the types of a function's parameters and gives the type of
its results.  The calculator has a fixed set of functions with control
sequences of their own, all of them on numbers.
-/

namespace GraphCalc

/-- The types of a function, and whether the calculator has a control sequence
for it. -/
structure Signature where
  params : List ValueType
  result : ValueType
  builtin : Bool
deriving DecidableEq, Repr, Inhabited

namespace Signature

/-- How a signature is shown. -/
def text (signature : Signature) : String :=
  "(" ++ ValueType.listText signature.params ++ ") -> " ++ signature.result.name

/-- The signature of a builtin function with the given number of parameters. -/
def onNumbers (arity : Nat) : Signature :=
  ⟨List.replicate arity .number, .number, true⟩

end Signature

namespace Builtin

/-- The function that the remainder operator stands for. -/
def moduloName : String :=
  "mod"

/-- The builtin functions, in the order of their names. -/
def functions : List (String × Signature) :=
  [("arccos", .onNumbers 1), ("arcsin", .onNumbers 1), ("arctan", .onNumbers 1),
    ("cos", .onNumbers 1), ("cosh", .onNumbers 1), ("cot", .onNumbers 1),
    ("csc", .onNumbers 1), ("exp", .onNumbers 1), ("gcd", .onNumbers 2),
    ("lcm", .onNumbers 2), ("ln", .onNumbers 1), ("log", .onNumbers 1),
    ("max", .onNumbers 2), ("min", .onNumbers 2), (moduloName, .onNumbers 2),
    ("sec", .onNumbers 1), ("sin", .onNumbers 1), ("sinh", .onNumbers 1),
    ("tan", .onNumbers 1), ("tanh", .onNumbers 1)]

/-- The signature of a builtin function. -/
def signature? (name : String) : Option Signature :=
  functions.lookup name

end Builtin

end GraphCalc
