import GraphCalc.Failure
import GraphCalc.Files.Path

/-!
# Hosts

A run is carried out by a host, which has the files and the streams.  A program
that asks for nothing but the operations listed here can be carried out on real
files as well as on a file tree.  Every operation on files may fail, whatever
became of those before it.
-/

namespace GraphCalc

open Text (Bytes)

/-- What a host can be asked to do. -/
structure Host (m : Type → Type) where
  /-- Lock files that are held. -/
  Lock : Type
  /-- Temporary files that are open for writing. -/
  Draft : Type
  /-- The path of a temporary file. -/
  path : Draft → String
  /-- The path of the working directory. -/
  directory : m String
  /-- Look for something at a path. -/
  find : String → m (Except FileProblem Unit)
  /-- Get the content of a file. -/
  read : String → m (Except FileError Bytes)
  /-- Make sure that there is a lock file, and hold it. -/
  acquire : String → ExceptT Failure m Lock
  release : Lock → m Unit
  /-- Create a temporary file for an output file. -/
  create : String → ExceptT Failure m Draft
  write : Draft → Bytes → ExceptT Failure m Unit
  close : Draft → ExceptT Failure m Unit
  /-- Let everyone read a file. -/
  publish : String → ExceptT Failure m Unit
  /-- Move a file to another path, in one step. -/
  move : String → String → ExceptT Failure m Unit
  /-- Remove a file if it is there and can be removed. -/
  remove : String → m Unit
  /-- Write to standard output. -/
  print : Bytes → ExceptT Failure m Unit
  /-- Write to standard error. -/
  report : String → m Unit
  /-- Do something, and something else each time a file has changed since, until
  the watching ends. -/
  watching : String → m Unit → m Unit → m Unit

namespace Host

variable {m : Type → Type} [Monad m] {α : Type}

/-- Do something that is worth naming if it fails. -/
def during (task : String) (action : ExceptT Failure m α) : ExceptT Failure m α :=
  ExceptT.mk do
    let result ← action.run
    return result.mapError (Failure.during task)

/-- Do something, and something else behind it whether or not it fails. -/
def ensuring (last : m Unit) (action : ExceptT Failure m α) : ExceptT Failure m α :=
  ExceptT.mk do
    let result ← action.run
    last
    return result

/-- Do something, and something else behind it if it fails. -/
def onFailure (last : m Unit) (action : ExceptT Failure m α) : ExceptT Failure m α :=
  ExceptT.mk do
    let result ← action.run
    if let .error _ := result then
      last
    return result

end Host

end GraphCalc
