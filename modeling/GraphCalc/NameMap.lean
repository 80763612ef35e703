import Std.Data.ExtTreeMap

/-!
# Finite maps from names

Maps are ordered by the code points of the names, and two maps with the same
entries are equal, however they came about.
-/

namespace GraphCalc

/-- A finite map from names. -/
abbrev NameMap (α : Type) := Std.ExtTreeMap String α compare

end GraphCalc
