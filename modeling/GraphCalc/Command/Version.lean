/-!
# Version

What is known of a build, and how it is shown.
-/

namespace GraphCalc

/-- Where a build comes from; "unknown" where that is not known. -/
structure Version where
  number : String
  commit : String
  date : String
deriving DecidableEq, Repr

namespace Version

/-- This build. -/
def current : Version :=
  ⟨"dev", "unknown", "unknown"⟩

/-- A line of its own for what is known. -/
def detail (label value : String) : String :=
  if value = "unknown" then "" else "\n  " ++ label ++ value

/-- The text that shows a version. -/
def text (version : Version) : String :=
  "graphtex " ++ version.number ++ " (linux/amd64)" ++
    detail "commit: " version.commit ++ detail "built:  " version.date

end Version

end GraphCalc
