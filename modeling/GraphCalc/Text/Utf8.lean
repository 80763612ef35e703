/-!
# Text as bytes

Source files, globals files and written output are byte sequences.  Encoding
is the usual UTF-8.  Decoding is total: a byte that does not start a valid
sequence stands for one replacement character, and decoding resumes at the
byte after it, so no input is rejected and none is skipped.
-/

namespace GraphCalc.Text

/-- A byte sequence, not necessarily valid UTF-8. -/
abbrev Bytes := List UInt8

/-- The UTF-8 encoding of a string. -/
def utf8 (text : String) : Bytes :=
  text.toList.flatMap String.utf8EncodeChar

/-- The payload of a continuation byte. -/
def continuation? (byte : UInt8) : Option Nat :=
  if 0x80 ≤ byte && byte ≤ 0xBF then some (byte.toNat - 0x80) else none

/-- A decoded value that is a scalar value no smaller than `least`, together
with the number of bytes it was written with. -/
def scalar? (least width value : Nat) : Option (Char × Nat) :=
  if least ≤ value && value.isValidChar then some (Char.ofNat value, width) else none

/-- The character written at the front of a byte sequence and its width in
bytes.  Overlong forms, surrogates and truncated sequences give nothing. -/
def headChar? : Bytes → Option (Char × Nat)
  | [] => none
  | first :: rest =>
      let lead := first.toNat
      if lead < 0x80 then
        some (Char.ofNat lead, 1)
      else if lead < 0xC0 then
        none
      else if lead < 0xE0 then
        match rest with
        | second :: _ => do
            let low ← continuation? second
            scalar? 0x80 2 ((lead - 0xC0) * 0x40 + low)
        | _ => none
      else if lead < 0xF0 then
        match rest with
        | second :: third :: _ => do
            let middle ← continuation? second
            let low ← continuation? third
            scalar? 0x800 3 (((lead - 0xE0) * 0x40 + middle) * 0x40 + low)
        | _ => none
      else if lead < 0xF8 then
        match rest with
        | second :: third :: fourth :: _ => do
            let high ← continuation? second
            let middle ← continuation? third
            let low ← continuation? fourth
            scalar? 0x10000 4
              ((((lead - 0xF0) * 0x40 + high) * 0x40 + middle) * 0x40 + low)
        | _ => none
      else
        none

/-- A part of a byte sequence: a character, or a byte that starts no valid
sequence. -/
inductive ByteUnit
  | char (value : Char)
  | stray (byte : UInt8)
deriving DecidableEq, Repr

/-- The parts of a byte sequence after skipping the bytes that still belong to
the last character. -/
def unitsAfter : Nat → Bytes → List ByteUnit
  | _, [] => []
  | skipped + 1, _ :: rest => unitsAfter skipped rest
  | 0, byte :: rest =>
      match headChar? (byte :: rest) with
      | some (char, width) => .char char :: unitsAfter (width - 1) rest
      | none => .stray byte :: unitsAfter 0 rest

/-- The parts of a byte sequence. -/
def units (bytes : Bytes) : List ByteUnit :=
  unitsAfter 0 bytes

/-- The character that a part of a byte sequence stands for. -/
def ByteUnit.decoded : ByteUnit → Char
  | .char value => value
  | .stray _ => '\ufffd'

/-- The characters of a byte sequence, with one replacement character for
each byte that starts no valid sequence. -/
def decode (bytes : Bytes) : List Char :=
  (units bytes).map ByteUnit.decoded

/-- The string a byte sequence encodes, if it is valid UTF-8. -/
def ofUtf8? (bytes : Bytes) : Option String :=
  String.fromUTF8? ⟨bytes.toArray⟩

end GraphCalc.Text
