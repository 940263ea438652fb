import RecordBoard.Number.Binary64

/-!
# The shortest decimal that reads back to a double

A double stands for all reals that round to it, an interval whose ends belong to it exactly when its
mantissa is even. Among the decimals in that interval the one with the fewest digits is written; of
two with as many digits the nearer one, and of two equally near ones the even one. The search is the
definition turned into a loop: for one digit, two digits, and so on it looks at the two neighbours
of the value on that decimal grid and tests them against the interval in exact arithmetic.

Which digits and how they are laid out are separate. `Decimal.shortest` chooses; `Binary64.text`
writes: positionally, always with a point, when the exponent of the first digit is at least `-5` and
below `16`, and otherwise with a signed exponent.

## Main definitions

* `Decimal` — a number of the form `digits * 10 ^ exponent`.
* `Decimal.readsBack` — whether a decimal lies in the interval of a double.
* `Decimal.shortest` — the decimal chosen for a double.
* `Binary64.text` — its written form.
-/

namespace RecordBoard

-- Powers are those of the core library, whatever else an importing module knows: hence the
-- instance, and the type of each exponent.
attribute [local instance (2000)] instPowNat

/-- The number `digits * 10 ^ exponent`. -/
structure Decimal where
  /-- The significant digits, as one natural number. -/
  digits : Nat
  /-- The power of ten they are counted in. -/
  exponent : Int
deriving DecidableEq

namespace Decimal

/-! ## The interval of a double -/

/-- The lower end of the interval, in quarter units. The gap below the least full mantissa is half
as wide as the one above. -/
def lowerEnd (d : Binary64) : Nat :=
  if d.mantissa = 2 ^ (52 : Nat) ∧ d.shift ≠ 0 then 4 * d.units - 2 ^ d.shift
  else 4 * d.units - 2 * 2 ^ d.shift

/-- The upper end of the interval, in quarter units. -/
def upperEnd (d : Binary64) : Nat := 4 * d.units + 2 * 2 ^ d.shift

/-- How a decimal compares with a number of quarter units. -/
def compareQuarters (x : Decimal) (quarters : Nat) : Ordering :=
  compare (Binary64.unitsInOne * 10 ^ x.exponent.toNat * (4 * x.digits))
    (10 ^ (-x.exponent).toNat * quarters)

/-- Whether a decimal is among the reals that round to the double. -/
def readsBack (d : Binary64) (x : Decimal) : Bool :=
  let even := d.mantissa % 2 == 0
  let low := compareQuarters x (lowerEnd d)
  let high := compareQuarters x (upperEnd d)
  (low == .gt || (even && low == .eq)) && (high == .lt || (even && high == .eq))

/-! ## The search -/

/--
The exponent of the first digit of a positive double. Scaled by `10 ^ 400` every positive double is
at least one, and dropping the fraction of a number that is at least one drops no digit before its
point.
-/
def leadingExponent (d : Binary64) : Int :=
  ((Nat.toDigits 10 (10 ^ (400 : Nat) * d.units / Binary64.unitsInOne)).length : Int) - 401

/-- The magnitude of a double counted in `10 ^ exponent`, without its fraction. -/
def floorAt (d : Binary64) (exponent : Int) : Nat :=
  10 ^ (-exponent).toNat * d.units / (Binary64.unitsInOne * 10 ^ exponent.toNat)

/-- How the magnitude of a double compares with the middle between `digits` and its successor. -/
def compareMiddle (d : Binary64) (digits : Nat) (exponent : Int) : Ordering :=
  compare (10 ^ (-exponent).toNat * (2 * d.units))
    (Binary64.unitsInOne * 10 ^ exponent.toNat * (2 * digits + 1))

/-- The neighbour that reads back; of two the one on its side of the middle, and in the middle the
even one. -/
def nearest? (low high : Bool) (middle : Ordering) (even : Bool) (below above : Decimal) :
    Option Decimal :=
  match low, high with
  | true, true =>
    match middle with
    | .lt => some below
    | .gt => some above
    | .eq => some (if even then below else above)
  | true, false => some below
  | false, true => some above
  | false, false => none

/-- The decimal with `count` digits that reads back and is nearest, if there is one. -/
def withDigits? (d : Binary64) (leading : Int) (count : Nat) : Option Decimal :=
  let exponent := leading + 1 - count
  let digits := floorAt d exponent
  let below : Decimal := ⟨digits, exponent⟩
  -- one more than all nines is a single digit one place further up
  let above : Decimal :=
    if digits + 1 = 10 ^ count then ⟨1, exponent + count⟩ else ⟨digits + 1, exponent⟩
  nearest? (readsBack d below) (readsBack d above) (compareMiddle d digits exponent)
    (digits % 2 == 0) below above

/-- The decimal that is the double itself. -/
def exact (d : Binary64) : Decimal := ⟨5 ^ (1074 : Nat) * d.units, -1074⟩

/-- The shortest decimal that reads back to a positive double. -/
def shortest (d : Binary64) : Decimal :=
  let leading := leadingExponent d
  (((List.range 17).map (· + 1)).findSome? (withDigits? d leading)).getD (exact d)

/-! ## The written form -/

/-- The digits with a point and an exponent where the first digit has the exponent `leading`. -/
def layout (digits : List Char) (leading : Int) : List Char :=
  if 0 ≤ leading ∧ leading < 16 then
    let whole := leading.toNat + 1
    if digits.length ≤ whole then digits ++ List.replicate (whole - digits.length) '0' ++ ['.', '0']
    else digits.take whole ++ '.' :: digits.drop whole
  else if -5 ≤ leading ∧ leading < 0 then
    ['0', '.'] ++ List.replicate (-leading - 1).toNat '0' ++ digits
  else
    let mantissa := match digits with
      | [] => []
      | [first] => [first]
      | first :: rest => first :: '.' :: rest
    mantissa ++ 'e' :: (if leading < 0 then '-' else '+') :: Nat.toDigits 10 leading.natAbs

end Decimal

/-- The written form of a double. -/
def Binary64.text (d : Binary64) : String :=
  let sign := if d.negative then ['-'] else []
  if d.isZero then String.ofList (sign ++ ['0', '.', '0'])
  else
    let chosen := Decimal.shortest d
    let digits := Nat.toDigits 10 chosen.digits
    String.ofList (sign ++ Decimal.layout digits (chosen.exponent + digits.length - 1))

end RecordBoard
