import GraphCalc.Compile.Program
import GraphCalc.Failure
import GraphCalc.Syntax.Parser

/-!
# Compiling texts

A text is compiled only if every line of it can be read.
-/

namespace GraphCalc

/-- What compiling a text gives: the formulas of the statements before the
first fault, the log, and the failure if there is one. -/
structure CompiledText where
  formulas : List Formula
  notes : List Note
  failure : Option Failure

/-- Read a text and compile its statements, given the types of the global
variables. -/
def compileText (globals : NameMap ValueType) (file : String) (text : List Char) :
    CompiledText :=
  let parsed := Parsed.ofText file text
  if parsed.errors.isEmpty then
    let compiled := Program.compile (Context.ofGlobals globals) parsed.program
    ⟨compiled.formulas, compiled.notes, compiled.fault.map Failure.fault⟩
  else
    ⟨[], [], some (.unreadable parsed.errors)⟩

end GraphCalc
