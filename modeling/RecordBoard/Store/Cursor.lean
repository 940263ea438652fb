import RecordBoard.Store.Trouble
import RecordBoard.Text.Hex

/-!
# Cursors

A page of keys that is not the last one comes with a cursor, from which the next page goes on. It is
the last key of the page, its octets written as hexadecimal digits, so every key has a cursor and a
cursor needs nothing kept on the side.
-/

namespace RecordBoard.Store

namespace Cursor

/-- Why a text is no cursor. -/
inductive Fault where
  /-- It is no sequence of octets. -/
  | notHex (f : Hex.Fault)
  /-- Its octets are no key. -/
  | notText (f : Utf8.Fault)
deriving DecidableEq

/-- The wording of a fault. An octet that is no digit is shown as the character of its number. -/
def Fault.message : Fault → String
  | .notHex .oddLength => "Odd number of digits"
  | .notHex (.notDigit octet position) =>
    s!"Invalid character {Text.quotedOne (Char.ofNat octet.toNat)} at position {position}"
  | .notText f => f.message

/-- The cursor of a page that ends with `key`. -/
def encode (key : String) : String := Hex.encode (Utf8.encode key)

/-- The key that a cursor stands for. -/
def decode (cursor : String) : Except Fault String :=
  match Hex.decode (Utf8.encode cursor) with
  | .error f => .error (.notHex f)
  | .ok octets =>
    match Utf8.decode octets with
    | .error f => .error (.notText f)
    | .ok key => .ok key

end Cursor

/-- The failure to go on from a cursor. -/
def Failure.badCursor (f : Cursor.Fault) : Failure := ⟨.resuming, f.message⟩

end RecordBoard.Store
