import GraphCalc.Text.Utf8
import GraphCalc.Yaml.Scan

/-!
# Names, tags and directives

A value may have a name, by which it is referred to elsewhere, and a tag.  A tag
is written with a handle that stands for its start; directives before a document
say what the handles stand for.
-/

namespace GraphCalc.Yaml

open Scan
open Text (Bytes)

/-- A tag as it is written.  A tag in angle brackets has no handle. -/
structure WrittenTag where
  handle : String
  suffix : String
deriving DecidableEq, Repr

/-- What a line with a percent sign says about a document. -/
inductive Directive
  | version (major minor : Nat)
  | handle (handle expansion : String)
deriving DecidableEq, Repr

/-- A name behind its sign.  It ends before a blank or some other sign. -/
def readName : Scan String := do
  skip
  let name ← takeWhile isNameChar
  let char ← current
  require (!name.isEmpty && (endsWord char ||
    ['?', ':', ',', ']', '\x7d', '%', '@', '\x60'].contains char))
  return String.ofList name

namespace WrittenTag

/-- Whether a character may stand in a tag. -/
def isTagChar (char : Char) : Bool :=
  isNameChar char || [';', '/', '?', ':', '@', '&', '=', '+', '$', ',', '.', '%', '!', '~',
    '*', '\'', '(', ')', '[', ']'].contains char

/-- The number of bytes of an encoded character that starts with a byte. -/
def byteCount? (lead : Nat) : Option Nat :=
  if lead < 0x80 then some 1
  else if lead < 0xC0 then none
  else if lead < 0xE0 then some 2
  else if lead < 0xF0 then some 3
  else if lead < 0xF8 then some 4
  else none

/-- A percent sign and the two digits of a byte. -/
def readOctet : Scan Nat := do
  need 3
  require ((← current) = '%')
  match hexValue? (← charAt 1), hexValue? (← charAt 2) with
  | some high, some low =>
      skipCount 3
      return high * 16 + low
  | _, _ => fail

/-- Some bytes that continue a character. -/
def readContinuation : Nat → Scan Bytes
  | 0 => return []
  | count + 1 => do
      let octet ← readOctet
      require (0x80 ≤ octet && octet < 0xC0)
      return octet.toUInt8 :: (← readContinuation count)

/-- The bytes of a character written byte by byte. -/
def readEscaped : Scan Bytes := do
  let lead ← readOctet
  match byteCount? lead with
  | some count => return lead.toUInt8 :: (← readContinuation (count - 1))
  | none => fail

/-- The bytes of the characters that may stand in a tag. -/
def readBytes : Nat → Scan Bytes
  | 0 => fail
  | steps + 1 => do
      need 1
      let char ← current
      if char = '%' then
        let bytes ← readEscaped
        return bytes ++ (← readBytes steps)
      else if isTagChar char then
        skip
        return char.toNat.toUInt8 :: (← readBytes steps)
      else
        return []

/-- The text of the characters that may stand in a tag. -/
def readText : Scan String := do
  return String.ofList (Text.decode (← readBytes (← stepLimit)))

/-- A handle, or what might have become one. -/
def readHandle : Scan String := do
  need 1
  require ((← current) = '!')
  skip
  let name ← takeWhile isNameChar
  if (← current) = '!' then
    skip
    return String.ofList ('!' :: name ++ ['!'])
  else
    return String.ofList ('!' :: name)

/-- A tag in angle brackets. -/
def readFull : Scan WrittenTag := do
  skipCount 2
  let text ← readText
  require (text ≠ "" && (← current) = '>')
  skip
  return ⟨"", text⟩

/-- A tag behind a handle; an exclamation mark alone is a tag of its own. -/
def readShort : Scan WrittenTag := do
  let handle ← readHandle
  let text ← readText
  if handle.length > 1 && handle.endsWith "!" then
    require (text ≠ "")
    return ⟨handle, text⟩
  else
    let suffix := String.ofList (handle.toList.drop 1) ++ text
    return if suffix = "" then ⟨"", "!"⟩ else ⟨"!", suffix⟩

/-- Read a tag at its exclamation mark. -/
def read : Scan WrittenTag := do
  need 2
  let tag ← if (← charAt 1) = '<' then readFull else readShort
  need 1
  require (endsWord (← current))
  return tag

end WrittenTag

namespace Directive

/-- A part of a version, which has one or two digits. -/
def readVersionPart : Scan Nat := do
  let digits ← takeWhile Char.isDigit
  require (!digits.isEmpty && digits.length ≤ 2)
  return digits.foldl (fun value digit => value * 10 + (digit.toNat - '0'.toNat)) 0

/-- The version that a document is written for. -/
def readVersion : Scan Directive := do
  let major ← readVersionPart
  require ((← current) = '.')
  skip
  return .version major (← readVersionPart)

/-- What a handle stands for. -/
def readExpansion : Scan Directive := do
  let handle ← WrittenTag.readHandle
  need 1
  require ((handle = "!" || (handle.length > 1 && handle.endsWith "!")) &&
    isBlank (← current))
  let _ ← takeWhile isBlank
  let expansion ← WrittenTag.readText
  need 1
  require (expansion ≠ "" && endsWord (← current))
  return .handle handle expansion

/-- Read a directive at its percent sign, with the rest of its line. -/
def read : Scan Directive := do
  skip
  let name ← takeWhile isNameChar
  require (endsWord (← current))
  let _ ← takeWhile isBlank
  let directive ←
    if name = "YAML".toList then readVersion
    else if name = "TAG".toList then readExpansion
    else fail
  finishLine
  return directive

end Directive

end GraphCalc.Yaml
