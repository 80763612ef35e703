import GraphCalc.Yaml.Scan

/-!
# Scalars

The text of a plain or quoted scalar may run over several lines.  Blanks inside
a line are kept; a single line end between two words counts as a space, and of
several line ends all but the first are kept.  A block scalar keeps the line
ends of its lines, or folds them in the same way.
-/

namespace GraphCalc.Yaml

open Scan

/-- The blanks or line ends between two words.  A gap is broken if it runs over
the end of a line. -/
structure Gap where
  blanks : List Char
  broken : Bool
  firstBreak : List Char
  moreBreaks : List Char
deriving DecidableEq, Repr

namespace Gap

/-- No gap at all. -/
def none : Gap :=
  ⟨[], false, [], []⟩

/-- The gap behind a line end that does not count. -/
def continued : Gap :=
  ⟨[], true, [], []⟩

/-- What a gap between two words stands for. -/
def text (gap : Gap) : List Char :=
  if !gap.broken then
    gap.blanks
  else if gap.firstBreak = ['\n'] then
    if gap.moreBreaks.isEmpty then [' '] else gap.moreBreaks
  else
    gap.firstBreak ++ gap.moreBreaks

/-- Read on in a gap.  Behind a line end a tab may not stand left of the column
`limit`. -/
def readFrom (limit : Nat) : Nat → Gap → Scan Gap
  | 0, _ => fail
  | steps + 1, gap => do
      need 1
      let char ← current
      if isBlank char then
        if gap.broken then
          require (!(char = '\t' && (← column) < limit))
          skip
          readFrom limit steps gap
        else
          skip
          readFrom limit steps { gap with blanks := gap.blanks ++ [char] }
      else if isBreak char then
        let lineEnd ← readLine
        if gap.broken then
          readFrom limit steps { gap with moreBreaks := gap.moreBreaks ++ lineEnd }
        else
          readFrom limit steps ⟨[], true, lineEnd, []⟩
      else
        return gap

/-- Read on in a gap. -/
def read (limit : Nat) (gap : Gap) : Scan Gap := do
  readFrom limit (← stepLimit) gap

end Gap

namespace Plain

/-- Whether a character ends a plain scalar inside brackets. -/
def isFlowIndicator (char : Char) : Bool :=
  [',', '?', '[', ']', '\x7b', '\x7d'].contains char

/-- The word here, which a colon before a gap ends. -/
def readWord (inFlow : Bool) : Nat → Scan (List Char)
  | 0 => fail
  | steps + 1 => do
      let char ← current
      if endsWord char || (char = ':' && endsWord (← charAt 1)) ||
          (inFlow && isFlowIndicator char) then
        return []
      else
        skip
        need 2
        let others ← readWord inFlow steps
        return char :: others

/-- Read on in a plain scalar whose lines have to start at the column `limit`
or further right, given the gap before this place.  The result tells whether a
line end stands behind the text. -/
def readFrom (inFlow : Bool) (limit : Nat) : Nat → Gap → Scan (List Char × Bool)
  | 0, _ => fail
  | steps + 1, gap => do
      need 4
      if (← get).atDocumentMark || (← current) = '#' then
        return ([], gap.broken)
      let word ← readWord inFlow (← stepLimit)
      let text := if word.isEmpty then [] else gap.text ++ word
      let left := if word.isEmpty then gap else Gap.none
      let char ← current
      if !(isBlank char || isBreak char) then
        return (text, left.broken)
      let next ← left.read limit
      if !inFlow && (← column) < limit then
        return (text, next.broken)
      let (others, broken) ← readFrom inFlow limit steps next
      return (text ++ others, broken)

/-- Read a plain scalar. -/
def read (inFlow : Bool) (limit : Nat) : Scan (List Char × Bool) := do
  readFrom inFlow limit (← stepLimit) Gap.none

end Plain

namespace Quoted

/-- The character a letter behind a backslash stands for. -/
def named? : Char → Option Char
  | '0' => some '\x00'
  | 'a' => some '\x07'
  | 'b' => some '\x08'
  | 't' | '\t' => some '\t'
  | 'n' => some '\n'
  | 'v' => some '\x0b'
  | 'f' => some '\x0c'
  | 'r' => some '\r'
  | 'e' => some '\x1b'
  | ' ' => some ' '
  | '"' => some '"'
  | '\'' => some '\''
  | '\\' => some '\\'
  | 'N' => some '\x85'
  | '_' => some '\xa0'
  | 'L' => some '\u2028'
  | 'P' => some '\u2029'
  | _ => none

/-- How many hexadecimal digits follow a letter behind a backslash. -/
def digitCount? : Char → Option Nat
  | 'x' => some 2
  | 'u' => some 4
  | 'U' => some 8
  | _ => none

/-- The value of hexadecimal digits. -/
def hexNumber? (digits : List Char) : Option Nat := do
  let values ← digits.mapM hexValue?
  some (values.foldl (fun value digit => value * 16 + digit) 0)

/-- The character that a backslash and what follows it stand for. -/
def readEscape : Scan Char := do
  let letter ← charAt 1
  match digitCount? letter with
  | some count =>
      skipCount 2
      need count
      let digits := (List.range count).map (← get).charAt
      match hexNumber? digits with
      | some value =>
          require value.isValidChar
          skipCount count
          return Char.ofNat value
      | none => fail
  | none =>
      match named? letter with
      | some char =>
          skipCount 2
          return char
      | none => fail

/-- The word here, and whether an escaped line end stands behind it. -/
def readWord (quote : Char) : Nat → Scan (List Char × Bool)
  | 0 => fail
  | steps + 1 => do
      let char ← current
      if endsWord char then
        return ([], false)
      else if quote = '\'' && char = quote && (← charAt 1) = quote then
        skipCount 2
        continueWith steps quote
      else if char = quote then
        return ([], false)
      else if quote = '"' && char = '\\' && isBreak (← charAt 1) then
        need 3
        skip
        modify Place.skipLine
        return ([], true)
      else if quote = '"' && char = '\\' then
        continueWith steps (← readEscape)
      else
        skip
        continueWith steps char
where
  continueWith (steps : Nat) (char : Char) : Scan (List Char × Bool) := do
    need 2
    let (others, continued) ← readWord quote steps
    return (char :: others, continued)

/-- Read on in a quoted scalar, up to and including the closing quote. -/
def readFrom (quote : Char) : Nat → Scan (List Char)
  | 0 => fail
  | steps + 1 => do
      need 4
      require (!(← get).atDocumentMark && (← current) ≠ endChar)
      let (word, continued) ← readWord quote (← stepLimit)
      need 1
      if (← current) = quote then
        skip
        return word
      let gap ← Gap.read 0 (if continued then Gap.continued else Gap.none)
      let others ← readFrom quote steps
      return word ++ gap.text ++ others

/-- Read a quoted scalar at its opening quote. -/
def read (quote : Char) : Scan (List Char) := do
  skip
  readFrom quote (← stepLimit)

end Quoted

namespace Block

/-- What becomes of the line ends behind a block scalar. -/
inductive Chomping
  | strip
  | clip
  | keep
deriving DecidableEq, Repr

/-- The sign for a way of chomping. -/
def chomping? : Char → Option Chomping
  | '+' => some .keep
  | '-' => some .strip
  | _ => none

/-- The signs behind the sign of a block scalar, in either order: the way of
chomping and the indent relative to the block around it. -/
def readHeader : Scan (Chomping × Nat) := do
  need 1
  match chomping? (← current) with
  | some chomping =>
      skip
      need 1
      return (chomping, ← readIndent)
  | none =>
      let indent ← readIndent
      need 1
      match chomping? (← current) with
      | some chomping =>
          skip
          return (chomping, indent)
      | none => return (.clip, indent)
where
  readIndent : Scan Nat := do
    let char ← current
    if char.isDigit then
      require (char ≠ '0')
      skip
      return char.toNat - '0'.toNat
    else
      return 0

/-- Pass over indents and empty lines, given the indent if it is known and the
widest one so far.  The result is the line ends passed over and the widest
indent. -/
def readBreaksFrom (indent : Nat) : Nat → Nat → Scan (List Char × Nat)
  | 0, _ => fail
  | steps + 1, widest => do
      let _ ← skipIndent (← stepLimit)
      let here ← column
      require (!((indent = 0 || here < indent) && (← current) = '\t'))
      if isBreak (← current) then
        let lineEnd ← readLine
        let (others, all) ← readBreaksFrom indent steps (max widest here)
        return (lineEnd ++ others, all)
      else
        return ([], max widest here)
where
  skipIndent : Nat → Scan Unit
    | 0 => fail
    | steps + 1 => do
        need 1
        if (indent = 0 || (← column) < indent) && (← current) = ' ' then
          skip
          skipIndent steps

/-- Pass over indents and empty lines.  An unknown indent becomes the widest one
passed over, but is further right than the block around it. -/
def readBreaks (outer : Int) (indent : Nat) : Scan (List Char × Nat) := do
  let (breaks, widest) ← readBreaksFrom indent (← stepLimit) 0
  return (breaks, if indent = 0 then max widest (max (outer + 1).toNat 1) else indent)

/-- What is read of a block scalar: its text, the line end behind that, and the
empty lines behind it. -/
structure Lines where
  text : List Char
  lineEnd : List Char
  breaks : List Char

/-- Read the lines of a block scalar, given the line end and the empty lines
before this place, and whether the line before it starts with a blank. -/
def readLines (literal : Bool) (outer : Int) (indent : Nat) :
    Nat → List Char → List Char → Bool → Scan Lines
  | 0, _, _, _ => fail
  | steps + 1, lineEnd, breaks, blankBefore => do
      need 1
      let char ← current
      if (← column) = indent && char ≠ endChar then
        let blank := isBlank char
        let between :=
          if !literal && !blankBefore && !blank && lineEnd = ['\n'] then
            if breaks.isEmpty then [' '] else breaks
          else
            lineEnd ++ breaks
        let line ← takeWhile fun char => !endsLine char
        let nextEnd ← readLine
        let (nextBreaks, _) ← readBreaks outer indent
        let others ← readLines literal outer indent steps nextEnd nextBreaks blank
        return { others with text := between ++ line ++ others.text }
      else
        return ⟨[], lineEnd, breaks⟩

/-- Read a block scalar at its sign, given the indent of the block around it. -/
def read (literal : Bool) (outer : Int) : Scan (List Char) := do
  skip
  let (chomping, relative) ← readHeader
  finishLine
  let given := if relative = 0 then 0 else (max outer 0).toNat + relative
  let (breaks, indent) ← readBreaks outer given
  let lines ← readLines literal outer indent (← stepLimit) [] breaks false
  match chomping with
  | .strip => return lines.text
  | .clip => return lines.text ++ lines.lineEnd
  | .keep => return lines.text ++ lines.lineEnd ++ lines.breaks

end Block

end GraphCalc.Yaml
