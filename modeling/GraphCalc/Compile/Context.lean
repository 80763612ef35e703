import GraphCalc.Compile.Layer
import GraphCalc.Compile.Signature
import GraphCalc.Syntax.Basic

/-!
# What names mean

A context gives the types of global variables, of local variables and of the
functions defined so far.  Globals win over locals, and defined functions win
over builtin ones.
-/

namespace GraphCalc

/-- The meaning of names at some point of a program. -/
structure Context where
  globals : NameMap ValueType
  locals : NameMap ValueType
  functions : NameMap Signature

namespace Context

/-- The context before the first statement. -/
def ofGlobals (globals : NameMap ValueType) : Context :=
  ⟨globals, ∅, ∅⟩

/-- The maps in which variables are looked up, in turn. -/
def variableLayers (context : Context) : List (Layer ValueType) :=
  [⟨"global", context.globals⟩, ⟨"local", context.locals⟩]

/-- The type of a variable. -/
def variableType? (context : Context) (name : String) : Option ValueType :=
  (Layer.find? context.variableLayers name).map Prod.fst

/-- The signature of a function. -/
def signature? (context : Context) (name : String) : Option Signature :=
  context.functions[name]? <|> Builtin.signature? name

/-- The context inside a function: its parameters are local variables.  Of
two parameters with one name the later counts. -/
def withParams (context : Context) (params : List Param) : Context :=
  { context with
    locals := params.foldl (fun locals param => locals.insert param.name param.type)
      context.locals }

/-- The context after the definition of a function. -/
def define (context : Context) (name : String) (signature : Signature) : Context :=
  { context with functions := context.functions.insert name signature }

end Context

end GraphCalc
