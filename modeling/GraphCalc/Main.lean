import GraphCalc.Command.Run

/-!
# The command line

The host with real files and streams.  All decisions of a run are those of
`GraphCalc.Command`.
-/

namespace GraphCalc.Main

open Text (Bytes)

/-- The problem behind an error of the system. -/
def problem : IO.Error → FileProblem
  | .noFileOrDirectory _ _ _ => .notFound
  | .alreadyExists _ _ _ => .occupied
  | .inappropriateType _ code _ => if code = 21 then .isDirectory else .notDirectory
  | .permissionDenied _ _ _ => .other "permission denied"
  | .invalidArgument _ _ details => .other details
  | error => .other (toString error)

/-- Do something that may meet a problem. -/
def attempt {α : Type} (action : IO α) : IO (Except FileProblem α) := do
  match ← action.toBaseIO with
  | .ok value => return .ok value
  | .error error => return .error (problem error)

/-- Do something to files.  The error shows the operation and the paths. -/
def change {α : Type} (shown : String) (paths : List String) (action : IO α) :
    ExceptT Failure IO α := do
  match ← attempt action with
  | .ok value => return value
  | .error problem => throw (.file ⟨shown, paths, problem⟩)

/-- Whether a path leads to a directory. -/
def isDirectory (path : String) : IO Bool := do
  ((← IO.currentDir) / path).isDir

/-- The content of a file. -/
def readFile (path : String) : IO (Except FileError Bytes) := do
  if path ≠ "" && (← isDirectory path) then
    return .error ⟨"read", [path], .isDirectory⟩
  match ← attempt (IO.FS.readBinFile path) with
  | .ok content => return .ok content.toList
  | .error problem => return .error ⟨"open", [path], problem⟩

/-- Make sure of a lock file and hold it. -/
def acquire (path : String) : ExceptT Failure IO IO.FS.Handle := do
  let lock ← change "open" [path] (IO.FS.Handle.mk path .append)
  match ← attempt lock.lock with
  | .ok () => return lock
  | .error problem => throw (.place problem)

/-- Create the temporary file for an output file, under a name that is not in
use. -/
def createFresh (path : String) : Nat → ExceptT Failure IO (String × IO.FS.Handle)
  | 0 => throw (.file (Output.exhausted path))
  | left + 1 => do
      let temporary := Output.temporaryPath path (toString (← IO.rand 0 4294967295))
      match ← attempt (IO.FS.Handle.mk temporary .writeNew) with
      | .ok handle => return (temporary, handle)
      | .error .occupied => createFresh path left
      | .error problem => throw (.file ⟨"open", [temporary], problem⟩)

def createTemporary (path : String) : ExceptT Failure IO (String × IO.FS.Handle) := do
  if let some error := Output.nameError? path then
    throw (.file error)
  createFresh path Output.attempts

/-- The rights of a file that everyone may read and its owner may write. -/
def readableByAll : IO.FileRight :=
  ⟨⟨true, true, false⟩, ⟨true, false, false⟩, ⟨true, false, false⟩⟩

/-- Move a file to another path, unless that leads to a directory. -/
def move (source target : String) : ExceptT Failure IO Unit := do
  if ← isDirectory target then
    throw (.file ⟨"rename", [source, target], .occupied⟩)
  change "rename" [source, target] (IO.FS.rename source target)

/-- Do something each time a file has another content than before. -/
partial def whenChanged (path : String) (last : Option Bytes) (action : IO Unit) : IO Unit := do
  IO.sleep 200
  match ← readFile path with
  | .error _ => whenChanged path last action
  | .ok content =>
      if last ≠ some content then
        action
      whenChanged path (some content) action

/-- The host with the files and streams of the process. -/
def host : Host IO where
  Lock := IO.FS.Handle
  Draft := String × IO.FS.Handle
  path := Prod.fst
  directory := return (← IO.currentDir).toString
  find path := do attempt (discard ((← IO.currentDir) / path).metadata)
  read := readFile
  acquire := acquire
  release lock := discard (attempt lock.unlock)
  create := createTemporary
  write draft content := change "write" [draft.1] (draft.2.write ⟨content.toArray⟩)
  close draft := change "close" [draft.1] draft.2.flush
  publish path := change "chmod" [path] (IO.setAccessRights path readableByAll)
  move := move
  remove path := discard (attempt (IO.FS.removeFile path))
  print text := change "write" ["/dev/stdout"] do
    (← IO.getStdout).write ⟨text.toArray⟩
    (← IO.getStdout).flush
  report text := do (← IO.getStderr).putStr text
  watching path first again := do
    let content ← readFile path
    first
    whenChanged path content.toOption again

end GraphCalc.Main

/-- The command. -/
def main (arguments : List String) : IO UInt32 := do
  return (← GraphCalc.Command.execute .standard GraphCalc.Main.host arguments).toUInt32
