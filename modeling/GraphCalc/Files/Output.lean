import GraphCalc.Files.Host

/-!
# Writing output files

An output file is replaced as a whole.  While it is written its lock file is
held; the new content is put into a temporary file first and then moved into
place, so the old content is there until the new content is complete.  Each of
the steps may fail, which ends the writing; the lock is released and the
temporary file is removed in any case.
-/

namespace GraphCalc

open Text (Bytes)

namespace Output

/-- The path of the lock file of an output file. -/
def lockPath (path : String) : String :=
  path ++ ".lock"

/-- How many names for the temporary file are tried. -/
def attempts : Nat :=
  10000

/-- The name of a temporary file, which holds the name of the output file. -/
def temporaryName (path suffix : String) : String :=
  "." ++ Path.lastName path ++ "." ++ suffix

/-- The path of a temporary file, in the directory of the output file. -/
def temporaryPath (path suffix : String) : String :=
  Path.join (Path.parent path) (temporaryName path suffix)

/-- What is wrong with an output path for naming a temporary file after it: the
root of all files has no name. -/
def nameError? (path : String) : Option FileError :=
  if (Path.lastName path).toList.contains '/' then
    some ⟨"createtemp", [temporaryName path "*"], .unnamed⟩
  else
    none

/-- The error of having no name left for the temporary file. -/
def exhausted (path : String) : FileError :=
  ⟨"createtemp", [temporaryPath path "*"], .exhausted⟩

end Output

namespace Host

variable {m : Type → Type} [Monad m]

/-- Fill a temporary file and move it to where the output file belongs. -/
def fill (host : Host m) (draft : host.Draft) (path : String) (content : Bytes) :
    ExceptT Failure m Unit := do
  let temporary := host.path draft
  during ("write " ++ temporary)
    (onFailure (discard (host.close draft).run) (host.write draft content))
  during ("close " ++ temporary) (host.close draft)
  during ("chmod " ++ temporary) (host.publish temporary)
  during "move output into place" (host.move temporary path)

/-- Write an output file whose lock is held. -/
def replace (host : Host m) (path : String) (content : Bytes) : ExceptT Failure m Unit := do
  let draft ← during "create temporary output" (host.create path)
  ensuring (host.remove (host.path draft)) (host.fill draft path content)

/-- Write an output file. -/
def writeOutput (host : Host m) (path : String) (content : Bytes) :
    ExceptT Failure m Unit := do
  let lock ← during "acquire output lock" (host.acquire (Output.lockPath path))
  ensuring (host.release lock) (host.replace path content)

end Host

end GraphCalc
