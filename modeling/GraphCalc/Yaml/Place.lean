/-!
# Places in a document

A document is taken in blocks of at most 512 bytes, each when the characters at
hand no longer suffice, and a block is refused if it holds a character that
documents may not hold.  What lies behind the part that is read is thus never
looked at.  Behind the last block stand as many end characters as are asked for.

A place is what lies ahead together with its line and column, both counted from
zero.  A byte order mark before the document is not part of it.
-/

namespace GraphCalc.Yaml

/-- Whether a document may hold a character. -/
def isAllowed (char : Char) : Bool :=
  let code := char.toNat
  code = 0x09 || code = 0x0A || code = 0x0D || (0x20 ≤ code && code ≤ 0x7E) ||
    code = 0x85 || (0xA0 ≤ code && code ≤ 0xD7FF) || (0xE000 ≤ code && code ≤ 0xFFFD) ||
    0x10000 ≤ code

/-- The character that stands behind the end of a document. -/
def endChar : Char :=
  '\x00'

/-- The byte order mark. -/
def byteOrderMark : Char :=
  '\ufeff'

/-- Whether a character ends a line. -/
def isBreak (char : Char) : Bool :=
  char = '\n' || char = '\r' || char = '\x85' || char = '\u2028' || char = '\u2029'

/-- Whether a character separates words on a line. -/
def isBlank (char : Char) : Bool :=
  char = ' ' || char = '\t'

/-- Whether a line ends before a character. -/
def endsLine (char : Char) : Bool :=
  isBreak char || char = endChar

/-- Whether a word ends before a character. -/
def endsWord (char : Char) : Bool :=
  isBlank char || endsLine char

/-- Whether a character may stand in a name. -/
def isNameChar (char : Char) : Bool :=
  char.isAlphanum || char = '_' || char = '-'

/-- The value of a hexadecimal digit. -/
def hexValue? (char : Char) : Option Nat :=
  if char.isDigit then
    some (char.toNat - '0'.toNat)
  else if 'a' ≤ char && char ≤ 'f' then
    some (char.toNat - 'a'.toNat + 10)
  else if 'A' ≤ char && char ≤ 'F' then
    some (char.toNat - 'A'.toNat + 10)
  else
    none

/-- The encodings of documents. -/
inductive Encoding
  | utf8
  | utf16
deriving DecidableEq, Repr

/-- The number of bytes that a character takes. -/
def Encoding.width (char : Char) : Encoding → Nat
  | utf8 => char.utf8Size
  | utf16 => if char.toNat < 0x10000 then 2 else 4

/-- The number of bytes in a full block. -/
def blockSize : Nat :=
  512

/-- Cut a text into blocks of whole characters, given how many bytes the first
block can still take. -/
def cutBlocks (encoding : Encoding) (room : Nat) : List Char → List (List Char)
  | [] => []
  | char :: rest =>
      let width := encoding.width char
      let fits := width ≤ room
      let left := (if fits then room else blockSize) - width
      let started :=
        match cutBlocks encoding left rest with
        | [] => [[char]]
        | first :: others => (char :: first) :: others
      if fits then started else [] :: started

/-- How far a place is from the start of a document. -/
structure Mark where
  index : Nat
  line : Nat
  column : Nat
deriving DecidableEq, Repr

/-- The characters at hand, the blocks that are not taken yet, whether the
characters at hand started with a byte order mark when the last block was taken,
and where they start now.  The size is that of the whole document. -/
structure Place where
  ahead : List Char
  later : List (List Char)
  marked : Bool
  mark : Mark
  size : Nat
deriving DecidableEq, Repr

namespace Place

/-- The start of a document. -/
def ofText (encoding : Encoding) (text : List Char) : Place :=
  let (rest, room) :=
    if text.head? = some byteOrderMark then
      (text.drop 1, blockSize - encoding.width byteOrderMark)
    else
      (text, blockSize)
  ⟨[], cutBlocks encoding room rest, false, ⟨0, 0, 0⟩, rest.length⟩

/-- Take blocks until enough characters are at hand, or else one end
character. -/
def takeBlocks (count : Nat) (ahead : List Char) :
    List (List Char) → Option (List Char × List (List Char))
  | [] => some (ahead ++ [endChar], [])
  | block :: later =>
      if !block.all isAllowed then
        none
      else if (ahead ++ block).length < count then
        takeBlocks count (ahead ++ block) later
      else
        some (ahead ++ block, later)

/-- Have a positive number of characters at hand. -/
def need (place : Place) (count : Nat) : Option Place :=
  if (place.ahead.drop (count - 1)).isEmpty then do
    let (ahead, later) ← takeBlocks count place.ahead place.later
    some { place with
      ahead := ahead
      later := later
      marked := ahead.head? = some byteOrderMark }
  else
    some place

/-- A character ahead. -/
def charAt (place : Place) (offset : Nat) : Char :=
  (place.ahead[offset]?).getD endChar

/-- The place behind the next character, on the same line. -/
def skip (place : Place) : Place :=
  { place with
    ahead := place.ahead.drop 1
    mark := ⟨place.mark.index + 1, place.mark.line, place.mark.column + 1⟩ }

/-- The place behind the line end here, if there is one. -/
def skipLine (place : Place) : Place :=
  let count :=
    if place.charAt 0 = '\r' && place.charAt 1 = '\n' then 2
    else if isBreak (place.charAt 0) then 1
    else 0
  if count = 0 then
    place
  else
    { place with
      ahead := place.ahead.drop count
      mark := ⟨place.mark.index + count, place.mark.line + 1, 0⟩ }

/-- What the line end here stands for: a newline, but the line and paragraph
separators stand for themselves. -/
def lineEnd (place : Place) : List Char :=
  let char := place.charAt 0
  if char = '\u2028' || char = '\u2029' then [char]
  else if isBreak char then ['\n']
  else []

/-- Whether three equal characters that form a word stand at the start of a
line. -/
def atDivider (place : Place) (char : Char) : Bool :=
  place.mark.column = 0 && (List.range 3).all (fun offset => place.charAt offset = char) &&
    endsWord (place.charAt 3)

/-- Whether a document starts or ends here by a mark of its own. -/
def atDocumentMark (place : Place) : Bool :=
  place.atDivider '-' || place.atDivider '.'

end Place

end GraphCalc.Yaml
