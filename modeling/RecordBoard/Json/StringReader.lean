import RecordBoard.Json.Fault

/-!
# Reading JSON strings

Behind the opening quote a string is read octet by octet up to the closing one. Escapes are replaced
by the octets of the character they name, everything else is taken as it is, and only when the
string is complete are its octets checked to be a text. An escape by number names sixteen bits, so a
character beyond those takes two, a leading and a trailing surrogate; neither may stand alone. A
complete string that is no text is refused behind the first octet that belongs to no character.

## Main definitions

* `Json.stringOctets` — the octets of a string.
* `Json.stringBody` — the text of a string.
-/

namespace RecordBoard.Json

/-- The character that an escape of one letter names. -/
def letterEscape? (letter : UInt8) : Option UInt8 :=
  match letter with
  | 0x22 => some 0x22
  | 0x5C => some 0x5C
  | 0x2F => some 0x2F
  | 0x62 => some 0x08
  | 0x66 => some 0x0C
  | 0x6E => some 0x0A
  | 0x72 => some 0x0D
  | 0x74 => some 0x09
  | _ => none

/-- The number that four digits spell. -/
def unit? (a b c d : UInt8) : Option Nat := do
  let a ← Hex.value? a
  let b ← Hex.value? b
  let c ← Hex.value? c
  let d ← Hex.value? d
  return ((a * 16 + b) * 16 + c) * 16 + d

/-- Whether a unit is the first half of a pair. -/
def isLeading (unit : Nat) : Bool := 0xD800 ≤ unit && unit < 0xDC00

/-- Whether a unit is the second half of a pair. -/
def isTrailing (unit : Nat) : Bool := 0xDC00 ≤ unit && unit < 0xE000

/-- The octets of the character with a given number. -/
def octetsOf (n : Nat) : Bytes := String.utf8EncodeChar (Char.ofNat n)

/-- The number of the character that a pair of units stands for. -/
def paired (leading trailing : Nat) : Nat :=
  0x10000 + (leading - 0xD800) * 0x400 + (trailing - 0xDC00)

/-- Octets in front of those that were read. -/
def prepend (front : Bytes) : Reading (Bytes × Bytes) → Reading (Bytes × Bytes)
  | .ok (octets, rest) => .ok (front ++ octets, rest)
  | .error s => .error s

/-- The octets of a string from behind its opening quote to its closing one. -/
def stringOctets : Bytes → Reading (Bytes × Bytes)
  | [] => stop .endInString []
  | c :: rest =>
    if c = 0x22 then .ok ([], rest)
    else if c < 0x20 then stop .controlCharacter rest
    else if c ≠ 0x5C then prepend [c] (stringOctets rest)
    else match rest with
      | [] => stop .endInString []
      | letter :: rest =>
        if letter ≠ 0x75 then
          match letterEscape? letter with
          | some named => prepend [named] (stringOctets rest)
          | none => stop .badEscape rest
        else match rest with
          | a :: b :: c :: d :: rest =>
            match unit? a b c d with
            | none => stop .badEscape rest
            | some unit =>
              if isTrailing unit then stop .loneSurrogate rest
              else if !isLeading unit then prepend (octetsOf unit) (stringOctets rest)
              else match rest with
                | [] => stop .endInString []
                | backslash :: rest =>
                  if backslash ≠ 0x5C then stop .unpairedSurrogate rest
                  else match rest with
                    | [] => stop .endInString []
                    | letter :: rest =>
                      if letter ≠ 0x75 then stop .unpairedSurrogate rest
                      else match rest with
                        | a :: b :: c :: d :: rest =>
                          match unit? a b c d with
                          | none => stop .badEscape rest
                          | some second =>
                            if isTrailing second then prepend (octetsOf (paired unit second))
                              (stringOctets rest)
                            else stop .loneSurrogate rest
                        | _ => stop .endInString []
          | _ => stop .endInString []

/-- What follows the first octet that belongs to no character. -/
def behindFault (input : Bytes) : Bytes :=
  match Utf8.decode input with
  | .ok _ => input
  | .error f => input.drop (f.index + 1)

/-- The text of a string from behind its opening quote to its closing one. -/
def stringBody (input : Bytes) : Reading (String × Bytes) := do
  let (octets, rest) ← stringOctets input
  match Utf8.decode octets with
  | .ok s => .ok (s, rest)
  | .error _ => stop .notText (behindFault input)

end RecordBoard.Json
