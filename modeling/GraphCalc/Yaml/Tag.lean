import GraphCalc.Text.Base64
import GraphCalc.Yaml.Node
import GraphCalc.Yaml.Place
import GraphCalc.Yaml.Timestamp

/-!
# Tags of scalars

A quoted scalar is a text.  A plain scalar is what it looks like: nothing, a
truth value, a timestamp, an integer, a decimal number, or else a text.
Underscores in a number are ignored; in a number that starts with a point they
may stand only between digits.  A number that is too large for a machine word is
a decimal number, and one that is too large for double precision is a text.

A scalar with one of the common tags has to look like what the tag says.  With
any other tag it is a text.
-/

namespace GraphCalc.Yaml

/-- What kind of value a node is. -/
structure Tag where
  text : String
deriving DecidableEq, Repr

namespace Tag

/-- How the common tags start. -/
def commonStart : String :=
  "tag:yaml.org,2002:"

/-- A common tag. -/
def common (name : String) : Tag :=
  ⟨commonStart ++ name⟩

/-- Nothing. -/
def null : Tag :=
  common "null"

/-- A truth value. -/
def bool : Tag :=
  common "bool"

/-- An integer. -/
def int : Tag :=
  common "int"

/-- A decimal number. -/
def float : Tag :=
  common "float"

/-- A timestamp. -/
def timestamp : Tag :=
  common "timestamp"

/-- A text. -/
def str : Tag :=
  common "str"

/-- Bytes written as text. -/
def binary : Tag :=
  common "binary"

/-- A key whose value is merged into the mapping around it. -/
def merge : Tag :=
  common "merge"

/-- A sequence. -/
def seq : Tag :=
  common "seq"

/-- A mapping. -/
def map : Tag :=
  common "map"

/-- The name of a tag, which is short for a common one. -/
def name (tag : Tag) : String :=
  if tag.text.startsWith commonStart then
    "!!" ++ String.ofList (tag.text.toList.drop commonStart.length)
  else
    tag.text

/-- The words for nothing. -/
def nullWords : List String :=
  ["", "~", "null", "Null", "NULL"]

/-- The words for the two truth values. -/
def boolWords : List String :=
  ["y", "Y", "yes", "Yes", "YES", "true", "True", "TRUE", "on", "On", "ON",
    "n", "N", "no", "No", "NO", "false", "False", "FALSE", "off", "Off", "OFF"]

/-- The words for numbers that are not written with digits. -/
def floatWords : List String :=
  [".nan", ".NaN", ".NAN", ".inf", ".Inf", ".INF", "+.inf", "+.Inf", "+.INF",
    "-.inf", "-.Inf", "-.INF"]

/-- The number that digits of a base stand for, if they are such digits and
there is at least one. -/
def number? (base : Nat) (digits : List Char) : Option Nat :=
  if digits.isEmpty then
    none
  else
    digits.foldl
      (fun value? digit => do
        let value ← value?
        let digitValue ← hexValue? digit
        if digitValue < base then some (value * base + digitValue) else none)
      (some 0)

/-- The number that an unsigned integer stands for.  Its first characters
choose the base. -/
def unsigned? : List Char → Option Nat
  | '0' :: 'x' :: digits | '0' :: 'X' :: digits => number? 16 digits
  | '0' :: 'o' :: digits | '0' :: 'O' :: digits => number? 8 digits
  | '0' :: 'b' :: digits | '0' :: 'B' :: digits => number? 2 digits
  | '0' :: digit :: digits => number? 8 (digit :: digits)
  | digits => number? 10 digits

/-- The number of values of a machine word. -/
def wordCount : Nat :=
  0x10000000000000000

/-- Whether a text is an integer that fits into a signed machine word. -/
def isSigned (text : List Char) : Bool :=
  match text with
  | '-' :: rest => (unsigned? rest).any (· ≤ wordCount / 2)
  | '+' :: rest => (unsigned? rest).any (· < wordCount / 2)
  | _ => (unsigned? text).any (· < wordCount / 2)

/-- Whether a text is an integer that fits into an unsigned machine word. -/
def isUnsigned (text : List Char) : Bool :=
  (unsigned? text).any (· < wordCount)

/-- Whether a text is a binary number with the sign behind the mark of the
base, and fits into a signed machine word. -/
def isMarkedBinary : List Char → Bool
  | '0' :: 'b' :: '-' :: digits => (number? 2 digits).any (· ≤ wordCount / 2)
  | '0' :: 'b' :: '+' :: digits => (number? 2 digits).any (· < wordCount / 2)
  | _ => false

/-- The text behind a sign, if there is one. -/
def unsign : List Char → List Char
  | '-' :: rest | '+' :: rest => rest
  | text => text

/-- An unsigned decimal number: its digits from the first one on that is not
zero, and how many of them stand before the point.  That number is negative if
zeros stand between the point and the first digit. -/
structure Decimal where
  digits : List Char
  point : Int
deriving DecidableEq, Repr

/-- From this exponent on no further digit of an exponent counts. -/
def exponentLimit : Nat :=
  10000

/-- How many digits before the point count. -/
def wholeLimit : Nat :=
  800

/-- The exponent that some digits stand for.  A digit counts only as long as the
digits before it stay below the limit. -/
def exponentValue (digits : List Char) : Nat :=
  digits.foldl
    (fun value digit =>
      if value < exponentLimit then value * 10 + (digit.toNat - '0'.toNat) else value) 0

/-- The exponent a text stands for; no text is no exponent. -/
def exponent? : List Char → Option Int
  | [] => some 0
  | mark :: rest =>
      let digits := unsign rest
      if (mark = 'e' || mark = 'E') && !digits.isEmpty && digits.all Char.isDigit then
        let value : Int := exponentValue digits
        some (if rest.head? = some '-' then -value else value)
      else
        none

/-- How many digits of a number stand before the point, leading zeros apart. -/
def pointOf (whole fraction : List Char) : Int :=
  let counted := whole.dropWhile (· = '0')
  if counted.isEmpty then
    -((fraction.takeWhile (· = '0')).length : Int)
  else
    min counted.length wholeLimit

/-- The decimal number a text stands for, without its sign. -/
def decimal? (text : List Char) : Option Decimal := do
  let body := unsign text
  let whole := body.takeWhile Char.isDigit
  let behind := body.dropWhile Char.isDigit
  let (fraction, mark) :=
    match behind with
    | '.' :: rest => (rest.takeWhile Char.isDigit, rest.dropWhile Char.isDigit)
    | rest => ([], rest)
  let exponent ← exponent? mark
  if whole.isEmpty && fraction.isEmpty then
    none
  else
    some ⟨(whole ++ fraction).dropWhile (· = '0'), pointOf whole fraction + exponent⟩

/-- The least number that is too large for double precision: halfway between
the largest one and the next power of two. -/
def doubleLimit : Nat :=
  0x3fffffffffffff <<< 970

/-- The number of digits of `doubleLimit`. -/
def doubleDigits : Nat :=
  309

/-- Whether a number is small enough for double precision.  Only numbers with as
many digits before the point as the limit have to be compared with it, and for
those the digits behind the point make no difference. -/
def Decimal.isDouble (decimal : Decimal) : Bool :=
  if decimal.digits.isEmpty || decimal.point < doubleDigits then
    true
  else if decimal.point > doubleDigits then
    false
  else
    let whole := decimal.digits.take doubleDigits
    let padded := whole ++ List.replicate (doubleDigits - whole.length) '0'
    (number? 10 padded).any (· < doubleLimit)

/-- Whether a text is a decimal number. -/
def isDecimal (text : List Char) : Bool :=
  (decimal? text).any Decimal.isDouble

/-- Whether each underscore in a text stands between digits, given whether a
digit stands before the text. -/
def separatesDigits (behindDigit : Bool) : List Char → Bool
  | [] => true
  | '_' :: rest =>
      behindDigit && rest.head?.any Char.isDigit && separatesDigits false rest
  | char :: rest => separatesDigits char.isDigit rest

/-- What a scalar looks like. -/
inductive Look
  | null
  | bool
  | timestamp
  | signed
  | unsigned
  | float
  | str
deriving DecidableEq, Repr

/-- What a text that starts with a digit or a sign looks like. -/
def numericLook (dated : Bool) (text : List Char) : Look :=
  let digits := text.filter (· ≠ '_')
  if dated && isTimestamp text then .timestamp
  else if isSigned digits then .signed
  else if isUnsigned digits then .unsigned
  else if isDecimal digits then .float
  else if isMarkedBinary digits then .signed
  else .str

/-- What a text looks like.  Timestamps are told apart only on demand. -/
def look (dated : Bool) (text : String) : Look :=
  if nullWords.contains text then
    .null
  else if boolWords.contains text then
    .bool
  else if floatWords.contains text then
    .float
  else
    match text.toList with
    | [] => .null
    | first :: rest =>
        if first = '.' then
          if separatesDigits false (first :: rest) &&
              isDecimal ((first :: rest).filter (· ≠ '_')) then
            .float
          else
            .str
        else if first.isDigit || first = '-' || first = '+' then
          numericLook dated (first :: rest)
        else
          .str

/-- The tag for a look. -/
def ofLook : Look → Tag
  | .null => null
  | .bool => bool
  | .timestamp => timestamp
  | .signed | .unsigned => int
  | .float => float
  | .str => str

/-- Whether a scalar has to look like what its tag says. -/
def isChecked (tag : Tag) : Bool :=
  [bool, int, float, null, timestamp].contains tag

/-- Whether a tag fits a look.  A signed integer is also a decimal number. -/
def fits (tag : Tag) (look : Look) : Bool :=
  tag = ofLook look || (tag = float && look = .signed)

end Tag

/-- What a scalar stands for: its tag, and the bytes of a text unless it is
nothing. -/
structure Meaning where
  tag : Tag
  content : Option Text.Bytes
deriving DecidableEq, Repr

namespace Meaning

/-- The meaning of a scalar with a look. -/
def ofLook (tag : Tag) (look : Tag.Look) (text : String) : Meaning :=
  ⟨tag, if look = .null then none else some (Text.utf8 text)⟩

/-- The meaning of a scalar with a tag. -/
def ofTagged (tag : Tag) (text : String) : Option Meaning :=
  if tag = .binary then do
    let bytes ← Text.Base64.decode? text.toList
    some ⟨tag, some bytes⟩
  else if tag.isChecked then
    let look := Tag.look (tag = .timestamp) text
    if tag.fits look then some (ofLook tag look text) else none
  else
    some ⟨tag, some (Text.utf8 text)⟩

/-- The meaning of a scalar, if it is what its tag says. -/
def ofScalar? (isImplicit : Bool) (tag : Option String) (text : String) : Option Meaning :=
  match tag with
  | some tag => ofTagged ⟨tag⟩ text
  | none =>
      if isImplicit then
        let look := Tag.look true text
        some (ofLook (.ofLook look) look text)
      else
        some ⟨.str, some (Text.utf8 text)⟩

end Meaning

/-- Whether a key says that its value is merged into the mapping around it. -/
def Node.isMerge : Node → Bool
  | .scalar _ isImplicit tag text =>
      text = "<<" && (isImplicit || tag = some Tag.merge.text)
  | _ => false

end GraphCalc.Yaml
