/-!
# UTF-8, with the place where it breaks

Keys travel as octets inside cursors, paths and stored values, so the service needs more of UTF-8
than "valid or not": a refused cursor names the first bad octet and how many octets go with it, and
a dump of stored values replaces each bad stretch by one replacement character.

Both readings come from one pass. `pieces` cuts a sequence of octets into characters, refused
stretches and a possible cut-off end; `decode` accepts when every piece is a character,
`decodeLossy` replaces the others.

## Main definitions

* `Bytes` — a sequence of octets.
* `Utf8.encode` — the octets of a text.
* `Utf8.pieces` — octets cut into characters and the stretches that are none.
* `Utf8.decode`, `Utf8.decodeLossy` — the two readings.
-/

namespace RecordBoard

/-- A sequence of octets. -/
abbrev Bytes := List UInt8

namespace Utf8

/-- The octets of a text. -/
def encode (s : String) : Bytes := s.toList.flatMap String.utf8EncodeChar

/-- What one step of reading octets finds. -/
inductive Piece where
  /-- A character, with all its octets present. -/
  | char (c : Char)
  /-- A stretch of `length` octets that begins no character. -/
  | refused (length : Nat)
  /-- The octets end inside a character. -/
  | cutOff
deriving DecidableEq

/-! ## Cutting octets into pieces -/

/-- Whether an octet can stand behind the first one. -/
def isTail (b : UInt8) : Bool := 0x80 ≤ b && b < 0xC0

/--
Whether `c` can follow the first octet `b`. Four first octets narrow the range: they would otherwise
spell a longer form of a shorter character, a surrogate, or a number above the last character.
-/
def isSecond (b c : UInt8) : Bool :=
  if b = 0xE0 then 0xA0 ≤ c && c < 0xC0
  else if b = 0xED then 0x80 ≤ c && c < 0xA0
  else if b = 0xF0 then 0x90 ≤ c && c < 0xC0
  else if b = 0xF4 then 0x80 ≤ c && c < 0x90
  else isTail c

/-- The six payload bits of an octet behind the first one. -/
def tailBits (b : UInt8) : Nat := b.toNat - 0x80

/--
Octets cut into pieces. A stretch is refused as soon as an octet cannot continue it, and that octet
is looked at again as a first one.
-/
def pieces : Bytes → List Piece
  | [] => []
  | b :: rest =>
    if b < 0x80 then .char (Char.ofNat b.toNat) :: pieces rest
    else if b < 0xC2 ∨ 0xF5 ≤ b then .refused 1 :: pieces rest
    else match rest with
      | [] => [.cutOff]
      | c :: rest₁ =>
        if !isSecond b c then .refused 1 :: pieces (c :: rest₁)
        else if b < 0xE0 then .char (Char.ofNat ((b.toNat - 0xC0) * 64 + tailBits c)) :: pieces
          rest₁
        else match rest₁ with
          | [] => [.cutOff]
          | d :: rest₂ =>
            if !isTail d then .refused 2 :: pieces (d :: rest₂)
            else if b < 0xF0 then
              .char (Char.ofNat ((b.toNat - 0xE0) * 4096 + tailBits c * 64 + tailBits d)) :: pieces
                rest₂
            else match rest₂ with
              | [] => [.cutOff]
              | e :: rest₃ =>
                if !isTail e then .refused 3 :: pieces (e :: rest₃)
                else
                  .char (Char.ofNat
                    ((b.toNat - 0xF0) * 262144 + tailBits c * 4096 + tailBits d * 64 + tailBits e))
                    :: pieces rest₃

/-! ## The two readings -/

/-- Why octets are no text. -/
inductive Fault where
  /-- The stretch of `length` octets from `index` on begins no character. -/
  | refused (index length : Nat)
  /-- The octets end inside the character that begins at `index`. -/
  | cutOff (index : Nat)
deriving DecidableEq

/-- Where the first octet stands that belongs to no character. -/
def Fault.index : Fault → Nat
  | .refused index _ | .cutOff index => index

/-- The wording of a fault. -/
def Fault.message : Fault → String
  | .refused index length => s!"invalid utf-8 sequence of {length} bytes from index {index}"
  | .cutOff index => s!"incomplete utf-8 byte sequence from index {index}"

/-- The characters of the pieces, the first of which begins at `index`; the first piece that is none
is the fault. -/
def characters (index : Nat) : List Piece → Except Fault (List Char)
  | [] => .ok []
  | .char c :: rest => (characters (index + c.utf8Size) rest).map (c :: ·)
  | .refused length :: _ => .error (.refused index length)
  | .cutOff :: _ => .error (.cutOff index)

/-- The text that the octets spell, or the first fault. -/
def decode (bytes : Bytes) : Except Fault String :=
  (characters 0 (pieces bytes)).map String.ofList

/-- The text that the octets spell, with one replacement character for each stretch that spells
none. -/
def decodeLossy (bytes : Bytes) : String :=
  String.ofList ((pieces bytes).map fun
    | .char c => c
    | _ => '\uFFFD')

end Utf8

end RecordBoard
