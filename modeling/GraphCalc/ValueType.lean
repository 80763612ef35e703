import GraphCalc.Text.Quoted

/-!
# Value types

A value is a number or a flat list of numbers.  Types have numeric codes in
recorded data; a code that stands for neither type is kept as it is.
-/

namespace GraphCalc

/-- The type of a value. -/
inductive ValueType
  | number
  | list
  | other (code : Int)
deriving DecidableEq, Repr, Inhabited

namespace ValueType

/-- The numeric code of a type. -/
def code : ValueType → Int
  | number => 0
  | list => 1
  | other code => code

/-- The type with a given code. -/
def ofCode (code : Int) : ValueType :=
  if code = 0 then number else if code = 1 then list else other code

/-- The name of a type. -/
def name : ValueType → String
  | number => "Number"
  | list => "List"
  | other code => "ValType(" ++ toString code ++ ")"

/-- The type names of the language.  They are reserved: no function or
parameter may have one of them as its name. -/
def names : List String :=
  [number.name, list.name]

/-- Whether a name is reserved for a type. -/
def isReserved (name : String) : Bool :=
  names.contains name

/-- The type with a given name. -/
def ofName? (name : String) : Option ValueType :=
  if name = number.name then some number
  else if name = list.name then some list
  else none

/-- The complaint about a quoted name that is no type's. -/
def unknownQuoted (quoted : String) : String :=
  "unknown type name " ++ quoted ++ ". Expected one of [" ++
    String.intercalate " " names ++ "]"

/-- The complaint about a name that is no type's. -/
def unknownName (name : String) : String :=
  unknownQuoted (Text.quote name)

/-- Type names separated by commas. -/
def listText (types : List ValueType) : String :=
  String.intercalate ", " (types.map ValueType.name)

end ValueType

end GraphCalc
