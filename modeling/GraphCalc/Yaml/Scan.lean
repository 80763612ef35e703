import GraphCalc.Yaml.Place

/-!
# Scanning

A scan reads on from a place, or finds that the document cannot be read.
-/

namespace GraphCalc.Yaml

/-- Reading on from a place. -/
abbrev Scan (α : Type) :=
  StateT Place Option α

namespace Scan

/-- The document cannot be read. -/
def fail {α : Type} : Scan α :=
  fun _ => none

/-- Go on only under a condition. -/
def require (condition : Bool) : Scan Unit :=
  if condition then pure () else fail

/-- Have some characters at hand. -/
def need (count : Nat) : Scan Unit :=
  fun place => (place.need count).map fun ready => ((), ready)

/-- A character ahead. -/
def charAt (offset : Nat) : Scan Char :=
  return (← get).charAt offset

/-- The next character. -/
def current : Scan Char :=
  charAt 0

/-- The column of this place. -/
def column : Scan Nat :=
  return (← get).mark.column

/-- More than the number of steps that any loop over the characters takes. -/
def stepLimit : Scan Nat :=
  return (← get).size + 3

/-- Pass over the next character. -/
def skip : Scan Unit :=
  modify Place.skip

/-- Pass over some characters. -/
def skipCount : Nat → Scan Unit
  | 0 => pure ()
  | count + 1 => do
      skip
      skipCount count

/-- Read the next character. -/
def next : Scan Char := do
  let char ← current
  skip
  return char

/-- Pass over a line end. -/
def skipLine : Scan Unit := do
  need 2
  modify Place.skipLine

/-- Read a line end. -/
def readLine : Scan (List Char) := do
  need 2
  let place ← get
  set place.skipLine
  return place.lineEnd

/-- Read characters as long as they are accepted, in a limited number of
steps. -/
def takeWhileFrom (accepts : Char → Bool) : Nat → Scan (List Char)
  | 0 => fail
  | limit + 1 => do
      need 1
      if accepts (← current) then
        let char ← next
        let others ← takeWhileFrom accepts limit
        return char :: others
      else
        return []

/-- Read characters as long as they are accepted.  The end character must not
be. -/
def takeWhile (accepts : Char → Bool) : Scan (List Char) := do
  takeWhileFrom accepts (← stepLimit)

/-- Pass over blanks and a comment up to the end of the line, and over its
end. -/
def finishLine : Scan Unit := do
  let _ ← takeWhile isBlank
  if (← current) = '#' then
    let _ ← takeWhile fun char => !endsLine char
  require (endsLine (← current))
  if isBreak (← current) then
    skipLine

end Scan

end GraphCalc.Yaml
