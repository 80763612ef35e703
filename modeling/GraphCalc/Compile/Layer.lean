import GraphCalc.NameMap

/-!
# Layered look-up

A name is looked up in several maps in turn; the first map that has it
decides.
-/

namespace GraphCalc

/-- A map with a name of its own. -/
structure Layer (α : Type) where
  name : String
  elems : NameMap α

/-- The value of a name in the first layer that has one, and that layer's
name. -/
def Layer.find? {α : Type} (layers : List (Layer α)) (name : String) :
    Option (α × String) :=
  layers.findSome? fun layer => layer.elems[name]?.map fun value => (value, layer.name)

end GraphCalc
