import GraphCalc.Text.Utf8

/-!
# Text in units of two bytes

A document may also be encoded in UTF-16.  Its units have two bytes each, in
either order, and a character takes one unit or a pair of surrogates.
-/

namespace GraphCalc.Text

/-- The order of the two bytes of a unit. -/
inductive ByteOrder
  | little
  | big
deriving DecidableEq, Repr

/-- The value of a unit. -/
def ByteOrder.unit (order : ByteOrder) (first second : UInt8) : Nat :=
  match order with
  | little => second.toNat * 0x100 + first.toNat
  | big => first.toNat * 0x100 + second.toNat

/-- The payload of the first unit of a pair. -/
def highSurrogate? (unit : Nat) : Option Nat :=
  if 0xD800 ≤ unit && unit < 0xDC00 then some (unit - 0xD800) else none

/-- The payload of the second unit of a pair. -/
def lowSurrogate? (unit : Nat) : Option Nat :=
  if 0xDC00 ≤ unit && unit < 0xE000 then some (unit - 0xDC00) else none

/-- The characters that a byte sequence encodes in UTF-16.  Where a character
cannot be decoded, a replacement stands for the rest. -/
def decodeUtf16 (order : ByteOrder) (replacement : Char) : Bytes → List Char
  | [] => []
  | [_] => [replacement]
  | first :: second :: rest =>
      let unit := order.unit first second
      match highSurrogate? unit with
      | some high =>
          match rest with
          | third :: fourth :: others =>
              match lowSurrogate? (order.unit third fourth) with
              | some low =>
                  Char.ofNat (0x10000 + high * 0x400 + low) ::
                    decodeUtf16 order replacement others
              | none => [replacement]
          | _ => [replacement]
      | none =>
          if (lowSurrogate? unit).isSome then [replacement]
          else Char.ofNat unit :: decodeUtf16 order replacement rest

end GraphCalc.Text
