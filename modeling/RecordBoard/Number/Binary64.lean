/-!
# Finite doubles as exact integers

Every finite double is a whole number of *units*, a unit being `2 ^ (-1074)`, the least positive
double. A double is kept here as a sign, a mantissa below `2 ^ 53` and a number of doublings, so
that its magnitude is `mantissa * 2 ^ shift` units: a plain natural number. Multiplication,
division, rounding up and comparison are then arithmetic on naturals, and there is exactly one place
where anything is rounded, `ofQuotient?`.

The representation is canonical. A mantissa below `2 ^ 52` is allowed only with no doublings, so two
values of the type are equal exactly when they are the same double; the two zeros differ in their
sign.

There is no infinity and no NaN. A result too large for a double is `none`.

In products and sums the large constant comes first. Multiplication and addition recur on their
second argument, so a term with a variable there is in normal form, while one with a number of a
thousand bits there would be unfolded that many times.

## Main definitions

* `Binary64` — a finite double.
* `Binary64.units` — its magnitude in units.
* `Binary64.ofQuotient?` — the double nearest to a quotient of naturals, ties to the even mantissa.
* `Binary64.ofInt?`, `Binary64.powerOfTen?`, `Binary64.mul?`, `Binary64.div?` — exact results,
  rounded once.
* `Binary64.ceil`, `Binary64.floor` — the whole numbers next to a magnitude.
-/

namespace RecordBoard

-- Powers are those of the core library, whatever else an importing module knows: hence the
-- instance, and the type of each exponent.
attribute [local instance (2000)] instPowNat

/-- A quotient rounded to the nearest natural, a tie going to the even neighbour. -/
def roundHalfEven (num den : Nat) : Nat :=
  let q := num / den
  let r := num % den
  if 2 * r < den then q else if den < 2 * r then q + 1 else q + q % 2

theorem div_le_roundHalfEven (num den : Nat) : num / den ≤ roundHalfEven num den := by
  simp only [roundHalfEven]
  split
  · exact Nat.le_refl _
  · split <;> omega

/-- A finite double: `mantissa * 2 ^ shift` units of `2 ^ (-1074)`, with a sign. -/
structure Binary64 where
  /-- Whether the sign is minus. -/
  negative : Bool
  /-- The significant bits. -/
  mantissa : Nat
  /-- How often the mantissa is doubled. -/
  shift : Nat
  /-- The mantissa has at most fifty-three bits. -/
  mantissa_lt : mantissa < 2 ^ (53 : Nat)
  /-- The magnitude is at most the largest finite one. -/
  shift_le : shift ≤ 2045
  /-- The mantissa is full, unless the double lies next to zero. -/
  normalised : shift = 0 ∨ 2 ^ (52 : Nat) ≤ mantissa
deriving DecidableEq

namespace Binary64

/-- The magnitude in units. -/
def units (d : Binary64) : Nat := d.mantissa * 2 ^ d.shift

/-- The number of units in one. -/
def unitsInOne : Nat := 2 ^ (1074 : Nat)

/-- Zero, with a sign. -/
def zero (negative : Bool) : Binary64 where
  negative
  mantissa := 0
  shift := 0
  mantissa_lt := by decide
  shift_le := by decide
  normalised := .inl rfl

/-- Whether the double is zero, of either sign. -/
def isZero (d : Binary64) : Bool := d.mantissa = 0

/-- The double with the other sign. -/
def neg (d : Binary64) : Binary64 := { d with negative := !d.negative }

/-- Whether two doubles are the same number: the two zeros are. -/
def sameNumber (a b : Binary64) : Bool := a = b || (a.isZero && b.isZero)

/-! ## Rounding -/

/-- The doublings that leave the mantissa of `q` units fifty-three bits. -/
def shiftFor (q : Nat) : Nat := q.log2 - 52

/-- A quotient cut at its doublings keeps a full mantissa. -/
theorem full_mantissa (num den : Nat) (h : shiftFor (num / den) ≠ 0) :
    2 ^ (52 : Nat) ≤ num / (den * 2 ^ shiftFor (num / den)) := by
  have hq : num / den ≠ 0 := by
    intro h0
    simp [h0, shiftFor] at h
  have hlog : (num / den).log2 = 52 + shiftFor (num / den) := by
    simp only [shiftFor] at h ⊢
    omega
  rw [← Nat.div_div_eq_div_mul]
  apply (Nat.le_div_iff_mul_le (Nat.two_pow_pos _)).mpr
  rw [← Nat.pow_add, ← hlog]
  exact Nat.log2_self_le hq

/--
The double nearest to `num / den` units, a tie going to the even mantissa, or `none` above the
largest finite double. A mantissa that rounds up to fifty-four bits becomes the least full one with
one more doubling.
-/
def ofQuotient? (negative : Bool) (num den : Nat) : Option Binary64 :=
  let shift := shiftFor (num / den)
  let mantissa := roundHalfEven num (den * 2 ^ shift)
  if hm : mantissa < 2 ^ (53 : Nat) then
    if hs : shift ≤ 2045 then
      some
        { negative, mantissa, shift, mantissa_lt := hm, shift_le := hs
          normalised := by
            by_cases h0 : shift = 0
            · exact .inl h0
            · exact .inr (Nat.le_trans (full_mantissa num den h0) (div_le_roundHalfEven _ _)) }
    else none
  else if hs : shift + 1 ≤ 2045 then
    some
      { negative, mantissa := 2 ^ (52 : Nat), shift := shift + 1
        mantissa_lt := by decide, shift_le := hs
        normalised := .inr (Nat.le_refl _) }
  else none

/-- The double nearest to an integer. -/
def ofInt? (i : Int) : Option Binary64 := ofQuotient? (decide (i < 0)) (unitsInOne * i.natAbs) 1

/-- The double nearest to a power of ten. -/
def powerOfTen? (k : Nat) : Option Binary64 := ofQuotient? false (unitsInOne * 10 ^ k) 1

/-- The product, rounded once. -/
def mul? (a b : Binary64) : Option Binary64 :=
  ofQuotient? (a.negative != b.negative) (a.units * b.units) unitsInOne

/-- The quotient, rounded once. -/
def div? (a b : Binary64) : Option Binary64 :=
  ofQuotient? (a.negative != b.negative) (unitsInOne * a.units) b.units

/-! ## Whole numbers -/

/-- The least whole number that is at least the magnitude. -/
def ceil (d : Binary64) : Nat := (unitsInOne - 1 + d.units) / unitsInOne

/-- The greatest whole number that is at most the magnitude. -/
def floor (d : Binary64) : Nat := d.units / unitsInOne

/-- Whether the double is at least zero; minus zero is. -/
def isNonNegative (d : Binary64) : Bool := !d.negative || d.isZero

end Binary64

end RecordBoard
