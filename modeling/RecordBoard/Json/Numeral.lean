import RecordBoard.Json.Fault

/-!
# Numerals

A numeral is read in two steps. The first takes its octets and keeps a sign, a significand below
`2 ^ 64`, and a power of ten. The second finds the number: an integer if there is neither point nor
exponent and it fits sixty-four bits, and otherwise a double.

Digits that no longer fit the significand are not lost without trace: each further digit before the
point still counts as a factor of ten, while digits behind the point are dropped from the first one
on that does not fit. The double is then one conversion and one multiplication or division by a
power of ten away, each rounded; it is close to the numeral and not always the nearest double.

## Main definitions

* `Json.Numeral`, `Numeral.ofBytes` — the parts of a numeral.
* `Numeral.scaled?`, `Numeral.number?` — the number they stand for.
-/

namespace RecordBoard.Json

-- Powers are those of the core library, whatever else an importing module knows: hence the
-- instance, and the type of each exponent.
attribute [local instance (2000)] instPowNat

/-- The parts of a numeral. -/
structure Numeral where
  /-- Whether it has a minus sign. -/
  negative : Bool
  /-- The digits that were kept. -/
  significand : Nat
  /-- The power of ten they are counted in. -/
  exponent : Int
  /-- Whether it has neither point nor exponent, and kept all its digits. -/
  isWhole : Bool
deriving DecidableEq

/-- The value of an octet as a decimal digit. -/
def digit? (b : UInt8) : Option Nat :=
  if 0x30 ≤ b && b ≤ 0x39 then some (b.toNat - 0x30) else none

/-- Whether an octet is a decimal digit. -/
def isDigit (b : UInt8) : Bool := (digit? b).isSome

namespace Numeral

/-! ## Taking the octets -/

/-- Digits before the point behind the significand `m`: the significand with those that fit, how
many do not, and the rest. -/
def wholeDigits (m : Nat) : Bytes → Nat × Nat × Bytes
  | [] => (m, 0, [])
  | c :: rest =>
    match digit? c with
    | none => (m, 0, c :: rest)
    | some d =>
      if m * 10 + d < 2 ^ (64 : Nat) then wholeDigits (m * 10 + d) rest
      else (m, ((c :: rest).takeWhile isDigit).length, (c :: rest).dropWhile isDigit)

/-- Digits behind the point: the significand with those that fit, how many these are, and the
rest. -/
def fractionDigits (m taken : Nat) : Bytes → Nat × Nat × Bytes
  | [] => (m, taken, [])
  | c :: rest =>
    match digit? c with
    | none => (m, taken, c :: rest)
    | some d =>
      if m * 10 + d < 2 ^ (64 : Nat) then fractionDigits (m * 10 + d) (taken + 1) rest
      else (m, taken, rest.dropWhile isDigit)

/-- Digits of an exponent behind `n`. One of thirty-two bits or more stops at once if it makes the
number too large. -/
def exponentDigits (enlarges : Bool) (n : Nat) : Bytes → Reading (Nat × Bytes)
  | [] => .ok (n, [])
  | c :: rest =>
    match digit? c with
    | none => .ok (n, c :: rest)
    | some d =>
      if enlarges && 2 ^ (31 : Nat) ≤ n * 10 + d then stop .outOfRange rest
      else exponentDigits enlarges (n * 10 + d) rest

/-- The sign of an exponent, if any: whether it is minus. -/
def exponentSign : Bytes → Bool × Bytes
  | 0x2B :: rest => (false, rest)
  | 0x2D :: rest => (true, rest)
  | input => (false, input)

/-- An exponent, if one comes, added to the power of ten that the digits are counted in. -/
def exponentPart (m : Nat) (exponent : Int) (input : Bytes) : Reading ((Int × Bool) × Bytes) :=
  match input with
  | c :: rest =>
    if c = 0x65 ∨ c = 0x45 then
      let (minus, rest) := exponentSign rest
      match rest with
      | [] => stop .endInValue []
      | d :: after =>
        if isDigit d then
          (exponentDigits (!minus && m != 0) 0 (d :: after)).map fun (n, rest) =>
            ((if minus then exponent - n else exponent + n, true), rest)
        else stop .badNumeral after
    else .ok ((exponent, false), c :: rest)
  | [] => .ok ((exponent, false), [])

/-- What may follow the digits before the point: a fraction and an exponent. -/
def tailParts (negative : Bool) (m dropped : Nat) (input : Bytes) : Reading (Numeral × Bytes) :=
  match input with
  | 0x2E :: rest =>
    match rest with
    | [] => stopAt .endInValue []
    | c :: after =>
      if isDigit c then
        let (m, taken, rest) := fractionDigits m 0 (c :: after)
        (exponentPart m ((dropped : Int) - taken) rest).map fun ((exponent, _), rest) =>
          (⟨negative, m, exponent, false⟩, rest)
      else stopAt .badNumeral (c :: after)
  | input =>
    (exponentPart m dropped input).map fun ((exponent, found), rest) =>
      (⟨negative, m, exponent, !found && dropped == 0⟩, rest)

/-- The numeral at the front of a text, behind its sign. -/
def ofUnsigned (negative : Bool) : Bytes → Reading (Numeral × Bytes)
  | [] => stop .endInValue []
  | c :: rest =>
    match digit? c with
    | none => stop .badNumeral rest
    | some 0 =>
      match rest with
      | d :: after =>
        if isDigit d then stopAt .badNumeral (d :: after) else tailParts negative 0 0 (d :: after)
      | [] => tailParts negative 0 0 []
    | some d =>
      let (m, dropped, rest) := wholeDigits d rest
      tailParts negative m dropped rest

/-- The numeral at the front of a text. -/
def ofBytes : Bytes → Reading (Numeral × Bytes)
  | 0x2D :: rest => ofUnsigned true rest
  | input => ofUnsigned false input

/-! ## The number -/

/-- A double divided `n` times by the largest power of ten. Once it is zero it stays so. -/
def divided (n : Nat) (f : Binary64) : Option Binary64 :=
  match n with
  | 0 => some f
  | n + 1 =>
    if f.isZero then some f
    else do
      let power ← Binary64.powerOfTen? 308
      divided n (← f.div? power)

/-- The double for `m * 10 ^ exponent`, rounded at every step. -/
def scaled? (m : Nat) (exponent : Int) : Option Binary64 := do
  let f ← Binary64.ofInt? m
  if exponent < 0 then
    let n := exponent.natAbs
    let steps := (n - 1) / 308
    let g ← divided steps f
    g.div? (← Binary64.powerOfTen? (n - 308 * steps))
  else if f.isZero then some f
  else if exponent ≤ 308 then f.mul? (← Binary64.powerOfTen? exponent.toNat)
  else none

/-- The integer that the significand stands for. -/
def toInt (n : Numeral) : Int := if n.negative then -n.significand else n.significand

/-- The number that a numeral stands for, unless it is too large. Minus zero is a double. -/
def number? (n : Numeral) : Option Number :=
  if h : n.isWhole ∧ ¬(n.negative ∧ n.significand = 0) ∧
      -2 ^ (63 : Nat) ≤ n.toInt ∧ n.toInt < 2 ^ (64 : Nat) then
    some (.integer n.toInt h.2.2)
  else
    (scaled? n.significand n.exponent).map fun d => .double (if n.negative then d.neg else d)

end Numeral

/-- The number at the front of a text. -/
def Number.ofBytes (input : Bytes) : Reading (Number × Bytes) := do
  let (numeral, rest) ← Numeral.ofBytes input
  match numeral.number? with
  | some n => .ok (n, rest)
  | none => stop .outOfRange rest

end RecordBoard.Json
