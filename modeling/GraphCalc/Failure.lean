import GraphCalc.Compile.Error
import GraphCalc.Files.Error
import GraphCalc.Globals.Document
import GraphCalc.Output.Latex
import GraphCalc.Syntax.Error

/-!
# Failures

Everything that can stop a run, with its wording and the exit status it leads
to.
-/

namespace GraphCalc

/-- Why a run stops. -/
inductive Failure
  /-- The text has lines that cannot be read. -/
  | unreadable (errors : List SyntaxError)
  /-- A statement cannot be compiled. -/
  | fault (fault : Fault)
  /-- A formula has no text. -/
  | unrenderable (fault : RenderFault)
  /-- A globals document declares nothing. -/
  | document (error : Globals.DocumentError)
  /-- Some declared type names are unknown. -/
  | undeclarable (unknown : List Declaration)
  /-- An operation on files failed. -/
  | file (error : FileError)
  /-- A place in the file tree cannot be used. -/
  | place (problem : FileProblem)
  /-- A failure met while doing something that is worth naming. -/
  | during (task : String) (cause : Failure)
deriving Repr

namespace Failure

/-- The wording of a failure. -/
def text : Failure → String
  | unreadable errors => SyntaxError.listing errors
  | fault cause => cause.text
  | unrenderable cause => cause.message
  | document error => error.text
  | undeclarable unknown => Declaration.listing unknown
  | file error => error.text
  | place problem => problem.message
  | during task cause => task ++ ": " ++ cause.text

/-- The exit status a failure leads to: two if the fault is not the user's, one
for all others. -/
def exitStatus : Failure → Nat
  | fault (.internal _) | unrenderable _ => 2
  | during _ cause => cause.exitStatus
  | _ => 1

/-- The exit status of a run that may have failed. -/
def exitStatus? : Option Failure → Nat
  | none => 0
  | some failure => failure.exitStatus

end Failure

end GraphCalc
