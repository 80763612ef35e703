import GraphCalc.Text.Printable
import GraphCalc.Text.Utf8

/-!
# Quoted text

A quoted text stands between double quotes.  Printable characters stand for
themselves, except that a quote or a backslash is preceded by a backslash.
The seven named controls are written as a backslash and a letter, other ASCII
controls with two hexadecimal digits, and every other character with four or,
beyond the first plane, eight.  A byte that is part of no character is written
with two.
-/

namespace GraphCalc.Text

/-- Lower-case hexadecimal digits, padded with zeros to at least `width`. -/
def hexDigits (width value : Nat) : List Char :=
  let digits := Nat.toDigits 16 value
  List.replicate (width - digits.length) '0' ++ digits

/-- The letter that names a control character after a backslash. -/
def controlLetter? (char : Char) : Option Char :=
  match char.toNat with
  | 0x07 => some 'a'
  | 0x08 => some 'b'
  | 0x09 => some 't'
  | 0x0A => some 'n'
  | 0x0B => some 'v'
  | 0x0C => some 'f'
  | 0x0D => some 'r'
  | _ => none

/-- One character as it is written inside double quotes. -/
def quotedChar (char : Char) : List Char :=
  if char = '"' || char = '\\' then
    ['\\', char]
  else if isPrintable char then
    [char]
  else
    match controlLetter? char with
    | some letter => ['\\', letter]
    | none =>
        let code := char.toNat
        if code < 0x80 then
          '\\' :: 'x' :: hexDigits 2 code
        else if code < 0x10000 then
          '\\' :: 'u' :: hexDigits 4 code
        else
          '\\' :: 'U' :: hexDigits 8 code

/-- A text between double quotes. -/
def quote (text : String) : String :=
  String.ofList ('"' :: text.toList.flatMap quotedChar ++ ['"'])

/-- One part of a byte sequence as it is written inside double quotes. -/
def ByteUnit.quoted : ByteUnit → List Char
  | .char value => quotedChar value
  | .stray byte => '\\' :: 'x' :: hexDigits 2 byte.toNat

/-- A byte sequence between double quotes. -/
def quoteBytes (bytes : Bytes) : String :=
  String.ofList ('"' :: (units bytes).flatMap ByteUnit.quoted ++ ['"'])

end GraphCalc.Text
