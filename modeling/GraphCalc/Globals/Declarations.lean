import GraphCalc.NameMap
import GraphCalc.Text.Listing
import GraphCalc.ValueType

/-!
# Declarations of global variables

A declaration gives a variable a type by name.  Both names are byte sequences,
because a document can hold bytes that are no text.  Declarations are resolved all
at once: either every type name is known, or all declarations with unknown
type names are complained about, in the order of the variables' names.
-/

namespace GraphCalc

open Text (Bytes)

/-- The types of declared variables. -/
abbrev DeclaredTypes :=
  Std.ExtTreeMap Bytes ValueType compare

/-- The types of the variables whose names are text.  No other variable can be
mentioned in a source. -/
def DeclaredTypes.named (types : DeclaredTypes) : NameMap ValueType :=
  .ofList
    (types.toList.filterMap fun (name, type) =>
      (Text.ofUtf8? name).map fun text => (text, type)) compare

/-- A variable and the name of its type. -/
structure Declaration where
  name : Bytes
  typeName : Bytes
deriving DecidableEq, Repr

namespace Declaration

/-- The type a declaration names. -/
def type? (declaration : Declaration) : Option ValueType :=
  (Text.ofUtf8? declaration.typeName).bind ValueType.ofName?

/-- The complaint about a declaration with an unknown type name. -/
def complaint (declaration : Declaration) : String :=
  "global " ++ Text.quoteBytes declaration.name ++ ": " ++
    ValueType.unknownQuoted (Text.quoteBytes declaration.typeName)

/-- Declarations in the order of the variables' names. -/
def sorted (declarations : List Declaration) : List Declaration :=
  declarations.mergeSort fun first second => first.name ≤ second.name

/-- The types of all declared variables, or the declarations whose type names
are unknown. -/
def resolve (declarations : List Declaration) :
    Except (List Declaration) DeclaredTypes :=
  let unknown := (sorted declarations).filter fun declaration => declaration.type?.isNone
  if unknown.isEmpty then
    .ok (.ofList
      (declarations.filterMap fun declaration =>
        declaration.type?.map fun type => (declaration.name, type)) compare)
  else
    .error unknown

/-- All complaints as one text. -/
def listing (unknown : List Declaration) : String :=
  Text.listing (unknown.map complaint)

end Declaration

end GraphCalc
