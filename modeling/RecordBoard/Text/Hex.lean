import RecordBoard.Text.Utf8

/-!
# Hexadecimal digits

Page cursors and random ids are octets written with two lower-case digits each; cursors are read
back in either case. A refused cursor is told apart by its cause: an odd number of digits is found
first, then the first octet that is no digit.
-/

namespace RecordBoard.Hex

/-- The digit of a number below sixteen, in lower case. -/
def digit (n : Nat) : Char := if n < 10 then Char.ofNat (0x30 + n) else Char.ofNat (0x57 + n)

/-- The two digits of an octet, the upper half first. -/
def digits (b : UInt8) : List Char := [digit (b.toNat / 16), digit (b.toNat % 16)]

/-- The text of octets, two digits each. -/
def encode (bytes : Bytes) : String := String.ofList (bytes.flatMap digits)

/-- The number that an octet stands for as a digit of either case. -/
def value? (b : UInt8) : Option Nat :=
  if 0x30 ≤ b && b ≤ 0x39 then some (b.toNat - 0x30)
  else if 0x61 ≤ b && b ≤ 0x66 then some (b.toNat - 0x57)
  else if 0x41 ≤ b && b ≤ 0x46 then some (b.toNat - 0x37)
  else none

/-- Why a sequence of octets is no text of digits. -/
inductive Fault where
  /-- The digits do not pair up. -/
  | oddLength
  /-- The octet at `position` is no digit. -/
  | notDigit (octet : UInt8) (position : Nat)
deriving DecidableEq

/-- The octets that pairs of digits spell; the first pair stands at `position`. -/
def pairs (position : Nat) : Bytes → Except Fault Bytes
  | a :: b :: rest =>
    match value? a, value? b with
    | none, _ => .error (.notDigit a position)
    | some _, none => .error (.notDigit b (position + 1))
    | some x, some y => (pairs (position + 2) rest).map (UInt8.ofNat (x * 16 + y) :: ·)
  | _ => .ok []

/-- The octets that a text of digits spells. -/
def decode (text : Bytes) : Except Fault Bytes :=
  if text.length % 2 = 1 then .error .oddLength else pairs 0 text

end RecordBoard.Hex
