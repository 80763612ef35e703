import GraphCalc.Files.Output
import GraphCalc.Files.Tree

/-!
# Simulated hosts

A host can be simulated on a file tree.  What it does beyond that is a matter of
its behavior: how temporary files are named, and which operations are refused for
reasons that a file tree does not show, such as a full disk or a missing
permission.  Apart from reading a file, a run does none of these operations twice.
-/

namespace GraphCalc

open Text (Bytes)

/-- The operations that may be refused. -/
inductive Operation
  | read (path : String)
  | openLock
  | holdLock
  | create
  | write
  | close
  | publish
  | move
  | remove
  | print
deriving DecidableEq, Repr

/-- How a simulated host behaves. -/
structure Behavior where
  /-- The suffixes of temporary files, in the order in which they are tried. -/
  suffix : Nat → String
  /-- Why an operation is refused, if it is. -/
  refusal? : Operation → Option FileProblem
  /-- How many bytes are written before writing is refused. -/
  reach : Nat

/-- A host that refuses nothing a file tree allows. -/
def Behavior.willing (suffix : Nat → String) : Behavior :=
  ⟨suffix, fun _ => none, 0⟩

/-- What a simulated run reads and changes. -/
structure World where
  tree : FileTree
  stdout : Bytes
  stderr : String

namespace FileTree

/-- The first of numbered paths that leads to a place where nothing lies, with
that place.  A path that leads nowhere ends the search. -/
def freshFrom (tree : FileTree) (exhausted : FileError) (paths : Nat → String) (number : Nat) :
    Nat → Except FileError (String × Location)
  | 0 => .error exhausted
  | left + 1 =>
      match tree.locate (paths number) with
      | .error problem => .error ⟨"open", [paths number], problem⟩
      | .ok location =>
          if (tree.entry? location).isSome then
            freshFrom tree exhausted paths (number + 1) left
          else
            .ok (paths number, location)

/-- The path and the place of the temporary file for an output file. -/
def freshTemporary (tree : FileTree) (suffix : Nat → String) (path : String) :
    Except FileError (String × Location) :=
  tree.freshFrom (Output.exhausted path)
    (fun number => Output.temporaryPath path (suffix number)) 0 Output.attempts

end FileTree

namespace Behavior

/-- Change the file tree, unless that is refused.  The error shows the operation
and the paths. -/
def change {α : Type} (behavior : Behavior) (operation : Operation) (shown : String)
    (paths : List String) (action : FileTree → Except FileProblem (α × FileTree)) :
    ExceptT Failure (StateM World) α :=
  ExceptT.mk fun world =>
    match behavior.refusal? operation with
    | some problem => (.error (.file ⟨shown, paths, problem⟩), world)
    | none =>
        match action world.tree with
        | .error problem => (.error (.file ⟨shown, paths, problem⟩), world)
        | .ok (value, tree) => (.ok value, { world with tree := tree })

/-- The content of a file, unless reading is refused. -/
def read (behavior : Behavior) (tree : FileTree) (path : String) : Except FileError Bytes :=
  match behavior.refusal? (.read path) with
  | some problem => .error ⟨"open", [path], problem⟩
  | none => tree.read path

/-- Make sure of a lock file and hold it.  If it cannot be held, it is there all
the same. -/
def acquire (behavior : Behavior) (path : String) : ExceptT Failure (StateM World) Unit := do
  behavior.change .openLock "open" [path] fun tree =>
    (tree.touch path).map fun touched => ((), touched)
  match behavior.refusal? .holdLock with
  | some problem => throw (.place problem)
  | none => return ()

/-- Create an empty temporary file. -/
def create (behavior : Behavior) (path : String) :
    ExceptT Failure (StateM World) (String × Location) :=
  ExceptT.mk fun world =>
    match Output.nameError? path with
    | some error => (.error (.file error), world)
    | none =>
        match behavior.refusal? .create with
        | some problem =>
            let first := Output.temporaryPath path (behavior.suffix 0)
            (.error (.file ⟨"open", [first], problem⟩), world)
        | none =>
            match world.tree.freshTemporary behavior.suffix path with
            | .error error => (.error (.file error), world)
            | .ok draft =>
                (.ok draft, { world with tree := world.tree.insert draft.2 (.file []) })

/-- Write to a temporary file, or to a part of it if the rest is refused. -/
def write (behavior : Behavior) (draft : String × Location) (content : Bytes) :
    ExceptT Failure (StateM World) Unit :=
  ExceptT.mk fun world =>
    let holding (written : Bytes) : World :=
      { world with tree := world.tree.insert draft.2 (.file written) }
    match behavior.refusal? .write with
    | some problem =>
        (.error (.file ⟨"write", [draft.1], problem⟩), holding (content.take behavior.reach))
    | none => (.ok (), holding content)

/-- Write to standard output, or only a part if the rest is refused. -/
def print (behavior : Behavior) (text : Bytes) : ExceptT Failure (StateM World) Unit :=
  ExceptT.mk fun world =>
    match behavior.refusal? .print with
    | some problem =>
        (.error (.file ⟨"write", ["/dev/stdout"], problem⟩),
          { world with stdout := world.stdout ++ text.take behavior.reach })
    | none => (.ok (), { world with stdout := world.stdout ++ text })

/-- The simulated host.  Its files do not change but by what it is asked to do. -/
def host (behavior : Behavior) : Host (StateM World) where
  Lock := Unit
  Draft := String × Location
  path := Prod.fst
  directory := return (← get).tree.directoryPath
  find path := return ((← get).tree.find path).map fun _ => ()
  read path := return behavior.read (← get).tree path
  acquire := behavior.acquire
  release _ := pure ()
  create := behavior.create
  write := behavior.write
  close draft := behavior.change .close "close" [draft.1] fun tree => .ok ((), tree)
  publish path := behavior.change .publish "chmod" [path] fun tree =>
    (tree.find path).map fun _ => ((), tree)
  move source target := behavior.change .move "rename" [source, target] fun tree =>
    (tree.move source target).map fun moved => ((), moved)
  remove path :=
    if (behavior.refusal? .remove).isSome then pure ()
    else modify fun world => { world with tree := world.tree.remove path }
  print := behavior.print
  report text := modify fun world => { world with stderr := world.stderr ++ text }
  watching _ first _ := first

end Behavior

end GraphCalc
