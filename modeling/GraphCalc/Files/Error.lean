/-!
# File errors

What can go wrong with a file, and how it is worded.
-/

namespace GraphCalc

/-- What is wrong with a place among the files. -/
inductive FileProblem
  /-- Nothing lies there. -/
  | notFound
  /-- The way there leads through a file. -/
  | notDirectory
  /-- A directory lies there, and a file is wanted. -/
  | isDirectory
  /-- Something that cannot be replaced lies there. -/
  | occupied
  /-- Every name that was tried is in use. -/
  | exhausted
  /-- The path is too long, or holds a name that is. -/
  | nameTooLong
  /-- The path holds a character that no path may hold. -/
  | invalidPath
  /-- The path has no last name. -/
  | unnamed
  /-- Anything else, in the words of the system. -/
  | other (message : String)
deriving DecidableEq, Repr

/-- The wording of a problem. -/
def FileProblem.message : FileProblem → String
  | notFound => "no such file or directory"
  | notDirectory => "not a directory"
  | isDirectory => "is a directory"
  | occupied => "file exists"
  | exhausted => "file already exists"
  | nameTooLong => "file name too long"
  | invalidPath => "invalid argument"
  | unnamed => "pattern contains path separator"
  | other message => message

/-- A problem met by an operation on some paths. -/
structure FileError where
  operation : String
  paths : List String
  problem : FileProblem
deriving DecidableEq, Repr

/-- The operation, the paths and the problem. -/
def FileError.text (error : FileError) : String :=
  String.intercalate " " (error.operation :: error.paths) ++ ": " ++ error.problem.message

end GraphCalc
