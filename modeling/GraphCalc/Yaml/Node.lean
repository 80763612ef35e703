import GraphCalc.Yaml.Token

/-!
# Documents as trees

A document is a tree of values.  A value with a name can be referred to, also
from inside itself, so a reference leads to a number in a table of named values
and the tree stays finite.
-/

namespace GraphCalc.Yaml

/-- A value in a document and the line on which it starts, counted from zero.  A
scalar may have a tag; without one, or with an exclamation mark alone, it is
implicit if it is written plainly.  Each reference has a number of its own. -/
inductive Node
  | scalar (line : Nat) (isImplicit : Bool) (tag : Option String) (text : String)
  | sequence (line : Nat) (items : List Node)
  | mapping (line : Nat) (pairs : List (Node × Node))
  | reference (line : Nat) (number : Nat) (target : Nat)
deriving Inhabited

namespace Node

/-- The line on which a value starts. -/
def line : Node → Nat
  | scalar line _ _ _ => line
  | sequence line _ => line
  | mapping line _ => line
  | reference line _ _ => line

/-- The value of an entry that is left out. -/
def empty (line : Nat) : Node :=
  .scalar line true none ""

end Node

/-- A tree together with the values that its references lead to. -/
structure Document where
  root : Node
  named : Array Node
deriving Inhabited

end GraphCalc.Yaml
