import Mathlib.Data.Rat.Floor
import Mathlib.Tactic.Positivity
import RecordBoard.Proofs.Json.Settled

/-!
# Numbers as rationals

A numeral stands for a rational number, and so does each of the two kinds of numbers that it is read
as.  An integer is read as it stands.  A double is rounded, and an integer that is asked for as a
double is rounded then.

Where nothing is lost can be said exactly for integers: those that are representable become the
double that they are.  Of a fraction something is always lost, but not the whole number above it, as
long as its digits fit a mantissa: the next whole number below is then at least one unit in the last
place of the numeral away, and rounding goes less far than that.

## Main definitions

* `Binary64.value`, `Number.value`, `Numeral.value` — the rational numbers that these stand for.
* `Numeral.IsPlain` — numerals that keep the whole number above them.

## Main results

* `ceil_eq` — rounding up a double that is not below zero.
* `units_near` — a rounded fraction is less than one unit in the last place away.
* `ceil_of_isPlain` — the whole number above a plain numeral is the one above what it is read as.
-/

namespace RecordBoard

-- Powers are those of the core library, whatever else an importing module knows.
attribute [local instance (2000)] instPowNat

open Binary64 (unitsInOne unitsInOne_pos ofQuotient?)
open Decimal (step pow_ten_pos)

namespace Binary64

/-- The rational number that a double is. -/
def value (d : Binary64) : ℚ := (if d.negative then -1 else 1) * (d.units / unitsInOne)

theorem isNonNegative_of_negative {d : Binary64} (h : d.negative = false) :
    d.isNonNegative = true := by
  rw [isNonNegative, h]
  rfl

/-- A double that is not below zero has a plus sign, or it is zero. -/
theorem isNonNegative_of_value {d : Binary64} (h : 0 ≤ d.value) : d.isNonNegative = true := by
  have hpos : (0 : ℚ) < unitsInOne := by exact_mod_cast unitsInOne_pos
  cases hsign : d.negative with
  | false => exact isNonNegative_of_negative hsign
  | true =>
    rw [value, hsign, if_pos rfl, neg_one_mul, neg_nonneg, div_le_iff₀ hpos, zero_mul] at h
    have hunits : d.units = 0 := Nat.le_zero.1 (by exact_mod_cast h)
    have hzero := (Nat.mul_eq_zero.1 hunits).resolve_right (Nat.ne_of_gt (Nat.two_pow_pos _))
    rw [isNonNegative, isZero, hzero, hsign]
    rfl

/-- The sign of zero counts for nothing. -/
theorem value_eq {d : Binary64} (h : d.isNonNegative = true) : d.value = d.units / unitsInOne := by
  cases hsign : d.negative with
  | false => rw [value, hsign, if_neg Bool.false_ne_true, one_mul]
  | true =>
    rw [isNonNegative, hsign, Bool.not_true, Bool.false_or, isZero, decide_eq_true_iff] at h
    rw [value, units, h, Nat.zero_mul, Nat.cast_zero, zero_div, mul_zero]

/-- Rounding up a double that is not below zero gives the least natural number not below it. -/
theorem ceil_eq {d : Binary64} (h : d.isNonNegative = true) : d.ceil = ⌈d.value⌉₊ := by
  have hpos : (0 : ℚ) < unitsInOne := by exact_mod_cast unitsInOne_pos
  refine eq_of_forall_ge_iff fun n => ?_
  rw [ceil_le_iff, Nat.ceil_le, value_eq h, div_le_iff₀ hpos, mul_comm (n : ℚ)]
  exact_mod_cast Iff.rfl

theorem value_lt_iff {d : Binary64} (h : d.isNonNegative = true) {n : Nat} :
    d.value < n ↔ d.units < unitsInOne * n := by
  have hpos : (0 : ℚ) < unitsInOne := by exact_mod_cast unitsInOne_pos
  rw [value_eq h, div_lt_iff₀ hpos, mul_comm (n : ℚ)]
  exact_mod_cast Iff.rfl

/-! ## Fractions -/

/-- A fraction whose digits fit a mantissa is rounded by less than one unit in its last place. -/
theorem units_near {m den : Nat} {d : Binary64} (hm : m < 2 ^ (53 : Nat)) (hden : 0 < den)
    (hle : den ≤ 10 ^ (22 : Nat)) (h : ofQuotient? false (unitsInOne * m) den = some d) :
    unitsInOne * m < d.units * den + unitsInOne ∧ d.units * den < unitsInOne * m + unitsInOne := by
  have hpos := unitsInOne_pos
  rcases Nat.eq_zero_or_pos m with rfl | hm'
  · have hzero := units_mul_le_two_mul hden h
    omega
  · have hunit : 2 ^ (52 : Nat) * den ≤ unitsInOne := by
      have hpow : 2 ^ (52 + 74) ≤ unitsInOne := Json.Numeral.two_pow_le_unitsInOne (by decide)
      have hbound : 2 ^ (52 : Nat) * 10 ^ (22 : Nat) ≤ 2 ^ (52 + 74) := by decide
      exact Nat.le_trans (Nat.mul_le_mul_left _ hle) (Nat.le_trans hbound hpow)
    have hfull : 2 ^ (52 : Nat) * den ≤ unitsInOne * m :=
      Nat.le_trans hunit (Nat.le_mul_of_pos_right unitsInOne hm')
    have hup := units_mul_le hden hfull h
    have hdown := le_units_mul hden hfull h
    have herror : unitsInOne * m < unitsInOne * 2 ^ (53 : Nat) := Nat.mul_lt_mul_of_pos_left hm hpos
    generalize unitsInOne = u at *
    rw [Nat.mul_add, Nat.mul_one] at hup
    omega

/-- So it is rounded to a double with the same whole number above it. -/
theorem ceil_le_iff_of_fraction {m den : Nat} {d : Binary64} (hm : m < 2 ^ (53 : Nat))
    (hden : 0 < den) (hle : den ≤ 10 ^ (22 : Nat))
    (h : ofQuotient? false (unitsInOne * m) den = some d) (n : Nat) :
    d.ceil ≤ n ↔ m ≤ n * den := by
  have hpos := unitsInOne_pos
  obtain ⟨hlow, hhigh⟩ := units_near hm hden hle h
  rw [ceil_le_iff]
  constructor
  · intro hunits
    have hmul : d.units * den ≤ unitsInOne * (n * den) := by
      rw [← Nat.mul_assoc]
      exact Nat.mul_le_mul_right den hunits
    have hlt : unitsInOne * m < unitsInOne * (n * den + 1) := by
      rw [Nat.mul_add, Nat.mul_one]
      omega
    exact Nat.le_of_lt_succ (Nat.lt_of_mul_lt_mul_left hlt)
  · intro hmn
    rcases Nat.lt_or_eq_of_le hmn with hlt | rfl
    · have hmul := Nat.mul_le_mul_left unitsInOne hlt
      rw [Nat.mul_succ, ← Nat.mul_assoc] at hmul
      exact Nat.le_of_lt (Nat.lt_of_mul_lt_mul_right (Nat.lt_of_lt_of_le hhigh hmul))
    · -- the fraction is a whole number, and then it is not rounded
      have hn : IsRepresentable n :=
        isRepresentable_of_le
          (Nat.le_of_lt (Nat.lt_of_le_of_lt (Nat.le_mul_of_pos_right n hden) hm))
      have hwhole : ofQuotient? false (unitsInOne * n) 1 = some d := by
        rw [← h]
        exact ofQuotient?_congr false Nat.one_pos hden (by rw [Nat.mul_one, Nat.mul_assoc])
      exact Nat.le_of_eq
        (units_of_dvd (isRepresentable_iff_dvd.1 (isRepresentable_units hn)) hwhole)

end Binary64

namespace Json

/-- The rational number that a number is. -/
def Number.value : Number → ℚ
  | .integer i _ => i
  | .double d => d.value

namespace Numeral

/-- The rational number that a numeral spells, as far as its digits were kept. -/
def value (n : Numeral) : ℚ := (if n.negative then -1 else 1) * (n.significand * 10 ^ n.exponent)

/-- A numeral without a sign, with digits that fit a mantissa, of a size that whole doubles
reach. -/
structure IsPlain (n : Numeral) : Prop where
  /-- It has no minus sign. -/
  positive : n.negative = false
  /-- Its digits fit a mantissa, and so all of them were kept. -/
  digits : n.significand < 2 ^ (53 : Nat)
  /-- They are counted in a power of ten that is a double, or in the inverse of one. -/
  exponent : n.exponent.natAbs ≤ 22
  /-- It is not beyond the whole numbers that are all doubles. -/
  size : n.value ≤ 2 ^ (53 : Nat)

theorem value_of_neg {n : Numeral} (hn : n.IsPlain) {k : Nat} (hk : n.exponent = -k) :
    n.value = n.significand / 10 ^ k := by
  rw [value, hn.positive, if_neg Bool.false_ne_true, one_mul, hk, zpow_neg, zpow_natCast,
    div_eq_mul_inv]

theorem value_of_nonneg {n : Numeral} (hn : n.IsPlain) {k : Nat} (hk : n.exponent = k) :
    n.value = (n.significand * 10 ^ k : Nat) := by
  rw [value, hn.positive, if_neg Bool.false_ne_true, one_mul, hk, zpow_natCast]
  push_cast
  rfl

/-- What a plain numeral with a point or an exponent is read as, rounded up. -/
theorem ceil_of_scaled {n : Numeral} (hn : n.IsPlain) {d : Binary64}
    (hd : scaled? n.significand n.exponent = some d) :
    d.negative = false ∧ d.ceil = ⌈n.value⌉₊ := by
  rw [scaled?_of_short (Nat.lt_trans hn.digits (by decide))
    (Binary64.isRepresentable_of_le (Nat.le_of_lt hn.digits)) hn.exponent] at hd
  refine ⟨Binary64.negative_ofQuotient hd, ?_⟩
  have hexponent := hn.exponent
  rcases Int.lt_or_le n.exponent 0 with hneg | hnonneg
  · obtain ⟨k, hk⟩ : ∃ k : Nat, n.exponent = -k := ⟨n.exponent.natAbs, by omega⟩
    have hten : (0 : ℚ) < 10 ^ k := by positivity
    have hstep : step n.exponent = unitsInOne := by
      rw [step, show n.exponent.toNat = 0 by omega, Nat.pow_zero, Nat.mul_one]
    rw [hstep, show (-n.exponent).toNat = k by omega] at hd
    refine eq_of_forall_ge_iff fun c => ?_
    rw [Binary64.ceil_le_iff_of_fraction hn.digits (pow_ten_pos k)
      (Decimal.pow_ten_le k 22 (by omega)) hd, Nat.ceil_le, value_of_neg hn hk, div_le_iff₀ hten]
    exact_mod_cast Iff.rfl
  · obtain ⟨k, hk⟩ : ∃ k : Nat, n.exponent = k := ⟨n.exponent.toNat, by omega⟩
    have hsize := hn.size
    rw [value_of_nonneg hn hk] at hsize ⊢
    have hrepresentable : Binary64.IsRepresentable (n.significand * 10 ^ k) :=
      Binary64.isRepresentable_of_le (by exact_mod_cast hsize)
    have hstep : step n.exponent * n.significand = unitsInOne * (n.significand * 10 ^ k) := by
      rw [step, show n.exponent.toNat = k by omega, Nat.mul_assoc, Nat.mul_comm (10 ^ k)]
    rw [hstep, show (-n.exponent).toNat = 0 by omega, Nat.pow_zero] at hd
    rw [Nat.ceil_natCast]
    exact Binary64.ceil_of_units (Binary64.units_of_dvd
      (Binary64.isRepresentable_iff_dvd.1 (Binary64.isRepresentable_units hrepresentable)) hd)

/-- What a plain numeral is read as has the same whole number above it. -/
theorem ceil_of_isPlain {text rest : Bytes} {n : Numeral} (hread : ofBytes text = .ok (n, rest))
    (hn : n.IsPlain) {x : Number} (hx : n.number? = some x) : ⌈x.value⌉₊ = ⌈n.value⌉₊ := by
  unfold number? at hx
  split at hx
  next hwhole =>
    cases hx
    have hexponent := exponent_of_isWhole hread hwhole.1
    have hint : n.toInt = n.significand := by
      rw [toInt, if_neg (by rw [hn.positive]; exact Bool.false_ne_true)]
    rw [value_of_nonneg hn (k := 0) hexponent, Nat.pow_zero, Nat.mul_one, Number.value, hint]
    rfl
  next =>
    obtain ⟨d, hd, rfl⟩ := Option.map_eq_some_iff.1 hx
    obtain ⟨hsign, hceil⟩ := ceil_of_scaled hn hd
    rw [if_neg (by rw [hn.positive]; exact Bool.false_ne_true), Number.value,
      ← Binary64.ceil_eq (Binary64.isNonNegative_of_negative hsign), hceil]

end Numeral

end Json

end RecordBoard
