/-!
# Paths

A path is a text in which slashes divide names.  These functions look at the
text only, not at any files.
-/

namespace GraphCalc.Path

/-- The texts between the slashes of a path. -/
def splitSlash : List Char → List (List Char)
  | [] => [[]]
  | char :: rest =>
      if char = '/' then
        [] :: splitSlash rest
      else
        match splitSlash rest with
        | [] => [[char]]
        | first :: others => (char :: first) :: others

/-- The names between the slashes of a path, empty ones included. -/
def names (path : String) : List String :=
  (splitSlash path.toList).map String.ofList

/-- Whether a path starts at the root of all files. -/
def isRooted (path : String) : Bool :=
  path.toList.head? = some '/'

/-- The names of a path without detours, last name first.  A name is cancelled
by two dots behind it; at the root two dots mean nothing. -/
def direct (rooted : Bool) (done : List String) : List String → List String
  | [] => done
  | name :: rest =>
      if name = "" || name = "." then
        direct rooted done rest
      else if name = ".." then
        match done with
        | [] => direct rooted (if rooted then [] else [".."]) rest
        | last :: others =>
            if last = ".." then
              direct rooted (".." :: done) rest
            else
              direct rooted others rest
      else
        direct rooted (name :: done) rest

/-- The shortest path to the same place. -/
def clean (path : String) : String :=
  let rooted := isRooted path
  let joined := String.intercalate "/" (direct rooted [] (names path)).reverse
  if rooted then "/" ++ joined else if joined = "" then "." else joined

/-- A path below another. -/
def join (parent path : String) : String :=
  if parent.toList.getLast? = some '/' then parent ++ path else parent ++ "/" ++ path

/-- The path of the directory that holds the last name of a path. -/
def parent (path : String) : String :=
  let chars := path.toList.reverse.dropWhile (· ≠ '/')
  clean (String.ofList chars.reverse)

/-- The last name of a path. -/
def lastName (path : String) : String :=
  if path = "" then
    "."
  else
    let name := (path.toList.reverse.dropWhile (· = '/')).takeWhile (· ≠ '/')
    if name.isEmpty then "/" else String.ofList name.reverse

/-- The path from the root to a place given from a directory. -/
def absolute (directory path : String) : String :=
  if isRooted path then clean path else clean (join directory path)

end GraphCalc.Path
