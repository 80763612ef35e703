import GraphCalc.Files.Error
import GraphCalc.Files.Path
import GraphCalc.Text.Utf8
import Std.Data.ExtTreeMap

/-!
# File trees

A file tree holds files and directories, each at the place that the names on
the way to it describe, and knows the working directory.  A path is followed
name by name, from the root or from the working directory.  Trees with the
same working directory and the same entries are equal.
-/

namespace GraphCalc

open Text (Bytes)

/-- What lies at a place in a file tree. -/
inductive Entry
  | file (content : Bytes)
  | directory
deriving DecidableEq, Repr

/-- A place in a file tree: the names on the way to it from the root. -/
abbrev Location := List String

/-- Files and directories, and the working directory. -/
structure FileTree where
  directory : Location
  entries : Std.ExtTreeMap Location Entry compare

namespace FileTree

/-- What lies at a place.  The root is always there. -/
def entry? (tree : FileTree) (location : Location) : Option Entry :=
  if location = [] then some .directory else tree.entries[location]?

/-- Put something at a place. -/
def insert (tree : FileTree) (location : Location) (entry : Entry) : FileTree :=
  { tree with entries := tree.entries.insert location entry }

/-- Take away what lies at a place. -/
def erase (tree : FileTree) (location : Location) : FileTree :=
  { tree with entries := tree.entries.erase location }

/-- All files with their places. -/
def files (tree : FileTree) : List (Location × Bytes) :=
  tree.entries.toList.filterMap fun (location, entry) =>
    match entry with
    | .file content => some (location, content)
    | .directory => none

/-- The length in bytes of the longest name a file can have. -/
def longestName : Nat :=
  255

/-- The length in bytes of the longest path that can be followed. -/
def longestPath : Nat :=
  4095

/-- Follow names from a place.  Only directories can be passed through, and two
dots lead to one; above the root is the root. -/
def follow (tree : FileTree) (location : Location) :
    List String → Except FileProblem Location
  | [] => .ok location
  | name :: rest =>
      match tree.entry? location with
      | none => .error .notFound
      | some (.file _) => .error .notDirectory
      | some .directory =>
          if name = "" || name = "." then
            follow tree location rest
          else if name = ".." then
            if tree.entry? location.dropLast = some .directory then
              follow tree location.dropLast rest
            else
              .error .notFound
          else if name.utf8ByteSize > longestName then
            .error .nameTooLong
          else
            follow tree (location ++ [name]) rest

/-- The place a path leads to; nothing need lie there. -/
def locate (tree : FileTree) (path : String) : Except FileProblem Location :=
  if path.toList.contains '\x00' then
    .error .invalidPath
  else if path = "" then
    .error .notFound
  else if path.utf8ByteSize > longestPath then
    .error .nameTooLong
  else
    tree.follow (if Path.isRooted path then [] else tree.directory) (Path.names path)

/-- What a path leads to. -/
def find (tree : FileTree) (path : String) : Except FileProblem Entry := do
  match tree.entry? (← tree.locate path) with
  | none => .error .notFound
  | some entry => .ok entry

/-- The content of a file. -/
def read (tree : FileTree) (path : String) : Except FileError Bytes :=
  match tree.find path with
  | .error problem => .error ⟨"open", [path], problem⟩
  | .ok .directory => .error ⟨"read", [path], .isDirectory⟩
  | .ok (.file content) => .ok content

/-- Make sure that there is a file.  An existing file keeps its content. -/
def touch (tree : FileTree) (path : String) : Except FileProblem FileTree :=
  match tree.locate path with
  | .error problem => .error problem
  | .ok location =>
      match tree.entry? location with
      | none => .ok (tree.insert location (.file []))
      | some .directory => .error .isDirectory
      | some (.file _) => .ok tree

/-- Move what lies at a path to where another path leads.  A file there is
replaced, a directory is not. -/
def move (tree : FileTree) (source target : String) : Except FileProblem FileTree := do
  let place ← tree.locate source
  match tree.entry? place with
  | none => .error .notFound
  | some entry =>
      let goal ← tree.locate target
      if tree.entry? goal = some .directory then
        .error .occupied
      else
        .ok ((tree.erase place).insert goal entry)

/-- Take away the file that a path leads to, if there is one. -/
def remove (tree : FileTree) (path : String) : FileTree :=
  match tree.locate path with
  | .error _ => tree
  | .ok location =>
      match tree.entry? location with
      | some (.file _) => tree.erase location
      | _ => tree

/-- The path of the working directory. -/
def directoryPath (tree : FileTree) : String :=
  "/" ++ String.intercalate "/" tree.directory

end FileTree

end GraphCalc
