import GraphCalc.Text.Utf8

/-!
# Bytes written as text

Three bytes are written as four characters, each of which stands for six bits.
Equals signs fill up the last four characters, and line ends do not count.
-/

namespace GraphCalc.Text.Base64

/-- The six bits that a character stands for. -/
def sextet? (char : Char) : Option Nat :=
  if char.isUpper then
    some (char.toNat - 'A'.toNat)
  else if char.isLower then
    some (char.toNat - 'a'.toNat + 26)
  else if char.isDigit then
    some (char.toNat - '0'.toNat + 52)
  else if char = '+' then
    some 62
  else if char = '/' then
    some 63
  else
    none

/-- The first bytes of a number of 24 bits. -/
def bytes (count value : Nat) : Bytes :=
  [(value / 65536).toUInt8, (value / 256).toUInt8, value.toUInt8].take count

/-- The bytes that four characters stand for, the first characters given by
their bits.  Bits that make up no whole byte do not count. -/
def group? (first second : Nat) (third fourth : Char) : Option Bytes :=
  let high := first * 262144 + second * 4096
  if third = '=' && fourth = '=' then
    some (bytes 1 high)
  else do
    let middle ← sextet? third
    if fourth = '=' then
      some (bytes 2 (high + middle * 64))
    else
      some (bytes 3 (high + middle * 64 + (← sextet? fourth)))

/-- The bytes that characters without line ends stand for. -/
def decodeChars? : List Char → Option Bytes
  | [] => some []
  | first :: second :: third :: fourth :: rest => do
      let group ← group? (← sextet? first) (← sextet? second) third fourth
      if fourth = '=' && !rest.isEmpty then
        none
      else
        some (group ++ (← decodeChars? rest))
  | _ => none

/-- The bytes that a text stands for. -/
def decode? (text : List Char) : Option Bytes :=
  decodeChars? (text.filter fun char => char ≠ '\n' && char ≠ '\r')

end GraphCalc.Text.Base64
