import RecordBoard.Json.Numeral
import RecordBoard.Proofs.Number.Shortest

/-!
# The range of the reader of numerals

For a numeral that is no integer the reader takes a shortcut, one multiplication or division by a
rounded power of ten, each rounded again.  Dividing never leaves the range.  Multiplying can, and
the decimal that is written for the largest double is close enough to the limit for the errors of
three roundings to matter: up to `1797693134862315 * 10 ^ 293` they are too small to reach it, and
beyond that there are seven decimals, which are computed.

## Main results

* `exists_scaled_of_neg` — what is counted in a negative power of ten is in range.
* `exists_scaled_of_isWritable` — so is every decimal that is chosen for a double.
-/

namespace RecordBoard.Json.Numeral

-- Powers are those of the core library, whatever else an importing module knows: hence the
-- instance, and the type of each exponent.
attribute [local instance (2000)] instPowNat

open Binary64 (unitsInOne unitsInOne_pos beyond)

/-- Up to here the errors of three roundings do not reach the limit. -/
def safe : Nat := 1797693134862315 * 10 ^ (293 : Nat)

/-- How near to the limit the largest power of ten comes, and the largest product with its
errors. -/
theorem below_limit :
    unitsInOne * 10 ^ (308 : Nat) < beyond ∧
      unitsInOne * safe * (2 ^ (53 : Nat) + 1) * (2 ^ (53 : Nat) + 1) <
        beyond * (2 ^ (53 : Nat) * 2 ^ (53 : Nat)) ∧
      safe = 17976931348623150 * 10 ^ (292 : Nat) ∧
      10 ^ (17 : Nat) * 10 ^ (291 : Nat) ≤ safe := by
  decide +kernel

/-- A number that is no larger than this power of ten is far below the limit. -/
theorem mul_lt_beyond {n : Nat} (h : n ≤ 10 ^ (65 : Nat)) : unitsInOne * n < beyond := by
  have hpow :=
    Nat.mul_le_mul_left unitsInOne (Nat.le_trans h (Decimal.pow_ten_le 65 308 (by decide)))
  exact Nat.lt_of_le_of_lt hpow below_limit.1

/-! ## Dividing -/

theorem exists_powerOfTen (k : Nat) (h : k ≤ 308) : ∃ p, Binary64.powerOfTen? k = some p := by
  refine Binary64.isSome_ofQuotient false (by decide) ?_
  rw [Nat.mul_one]
  have hpow := Nat.mul_le_mul_left unitsInOne (Decimal.pow_ten_le k 308 h)
  exact Nat.lt_of_le_of_lt hpow below_limit.1

/-- A power of ten other than one is more than two, also when it was rounded. -/
theorem two_mul_lt_powerOfTen {k : Nat} {p : Binary64} (hk : 1 ≤ k)
    (h : Binary64.powerOfTen? k = some p) : unitsInOne * 2 < p.units := by
  have hpos := unitsInOne_pos
  have hone : 1 ≤ unitsInOne * 10 ^ k := Nat.mul_pos hpos (Decimal.pow_ten_pos k)
  have hpow := Nat.mul_le_mul_left unitsInOne (Decimal.pow_ten_le 1 k hk)
  have hhalf := Binary64.le_two_mul_units_mul (by decide) hone h
  omega

theorem exists_ofInt (m : Nat) (h : m < 2 ^ (64 : Nat)) :
    ∃ f, Binary64.ofInt? m = some f ∧ f.units ≤ unitsInOne * 2 ^ (65 : Nat) := by
  have hmul := Nat.mul_le_mul_left unitsInOne (Nat.le_of_lt h)
  have hlt : unitsInOne * m < beyond * 1 := by
    rw [Nat.mul_one]
    exact mul_lt_beyond (Nat.le_trans (Nat.le_of_lt h) (by decide))
  obtain ⟨f, hf⟩ := Binary64.isSome_ofQuotient (decide ((m : Int) < 0)) (by decide) hlt
  have hunits := Binary64.units_mul_le_two_mul (by decide) hf
  rw [Nat.mul_one] at hunits
  refine ⟨f, hf, Nat.le_trans hunits ?_⟩
  rw [show 2 ^ (65 : Nat) = 2 * 2 ^ (64 : Nat) by decide, Nat.mul_left_comm unitsInOne]
  exact Nat.mul_le_mul_left 2 hmul

/-- What is at most `2 ^ 65` stays so when it is divided by a power of ten. -/
theorem exists_div_powerOfTen {f p : Binary64} {k : Nat} (hk : 1 ≤ k)
    (hf : f.units ≤ unitsInOne * 2 ^ (65 : Nat)) (hp : Binary64.powerOfTen? k = some p) :
    ∃ g, f.div? p = some g ∧ g.units ≤ unitsInOne * 2 ^ (65 : Nat) := by
  have hpos := unitsInOne_pos
  have hrange : unitsInOne * 2 ^ (65 : Nat) < beyond := mul_lt_beyond (by decide)
  have htwo := two_mul_lt_powerOfTen hk hp
  have hone : unitsInOne ≤ p.units := by omega
  have hlt : unitsInOne * f.units < beyond * p.units := by
    calc unitsInOne * f.units
        ≤ p.units * f.units := Nat.mul_le_mul_right _ hone
      _ < p.units * beyond :=
        Nat.mul_lt_mul_of_pos_left (Nat.lt_of_le_of_lt hf hrange) (Nat.lt_of_lt_of_le hpos hone)
      _ = beyond * p.units := Nat.mul_comm ..
  obtain ⟨g, hg⟩ :=
    Binary64.isSome_ofQuotient (f.negative != p.negative) (Nat.lt_of_lt_of_le hpos hone) hlt
  refine ⟨g, hg, Nat.le_trans ?_ hf⟩
  have hdouble := Binary64.units_mul_le_two_mul (Nat.lt_of_lt_of_le hpos hone) hg
  refine Nat.le_of_mul_le_mul_left ?_ (Nat.mul_pos hpos (show 0 < 2 by decide))
  calc unitsInOne * 2 * g.units
      ≤ p.units * g.units := Nat.mul_le_mul_right _ (Nat.le_of_lt htwo)
    _ = g.units * p.units := Nat.mul_comm ..
    _ ≤ 2 * (unitsInOne * f.units) := hdouble
    _ = unitsInOne * 2 * f.units := by rw [← Nat.mul_assoc, Nat.mul_comm 2]

theorem exists_divided (n : Nat) (f : Binary64) (hf : f.units ≤ unitsInOne * 2 ^ (65 : Nat)) :
    ∃ g, divided n f = some g ∧ g.units ≤ unitsInOne * 2 ^ (65 : Nat) := by
  induction n generalizing f with
  | zero => exact ⟨f, rfl, hf⟩
  | succ n ih =>
    unfold divided
    split
    · exact ⟨f, rfl, hf⟩
    · obtain ⟨p, hp⟩ := exists_powerOfTen 308 (by decide)
      obtain ⟨h, hh, hbound⟩ := exists_div_powerOfTen (by decide) hf hp
      obtain ⟨g, hg⟩ := ih h hbound
      exact ⟨g, by simpa only [hp, hh, Option.bind_eq_bind, Option.bind_some] using hg⟩

/-- A number that is counted in a negative power of ten is in range. -/
theorem exists_scaled_of_neg (m : Nat) (hm : m < 2 ^ (64 : Nat)) (e : Int) (he : e < 0) :
    ∃ d, scaled? m e = some d := by
  have hleft : 1 ≤ e.natAbs - 308 * ((e.natAbs - 1) / 308) := by omega
  have hright : e.natAbs - 308 * ((e.natAbs - 1) / 308) ≤ 308 := by omega
  obtain ⟨f, hf, hbound⟩ := exists_ofInt m hm
  obtain ⟨g, hg, hbound'⟩ := exists_divided ((e.natAbs - 1) / 308) f hbound
  obtain ⟨p, hp⟩ := exists_powerOfTen _ hright
  obtain ⟨d, hd, -⟩ := exists_div_powerOfTen hleft hbound' hp
  refine ⟨d, ?_⟩
  unfold scaled?
  simp only [hf, he, hg, hp, hd, Option.bind_eq_bind, Option.bind_some, if_true]

/-! ## Multiplying -/

theorem two_pow_le_unitsInOne {k : Nat} (h : k ≤ 1074) : 2 ^ k ≤ unitsInOne := by
  unfold unitsInOne
  generalize (1074 : Nat) = j at h
  exact Nat.pow_le_pow_right (by decide) h

/-- Rounding an integer adds one part in `2 ^ 53` at most. -/
theorem units_le_of_natural {m : Nat} {negative : Bool} {f : Binary64} (hm : 0 < m)
    (h : Binary64.ofQuotient? negative (unitsInOne * m) 1 = some f) :
    f.units * 2 ^ (53 : Nat) ≤ unitsInOne * m * (2 ^ (53 : Nat) + 1) := by
  have hunit : 2 ^ (52 : Nat) ≤ unitsInOne := two_pow_le_unitsInOne (by decide)
  have hfull : 2 ^ (52 : Nat) * 1 ≤ unitsInOne * m := by
    rw [Nat.mul_one]
    exact Nat.le_trans hunit (Nat.le_mul_of_pos_right unitsInOne hm)
  simpa only [Nat.mul_one] using Binary64.units_mul_le (by decide) hfull h

private theorem mul_lt_of_errors {f p u m t q c s limit : Nat} (hu : 0 < u)
    (hlimit : u * s * q * q < limit * (c * c)) (hle : m * t ≤ s) (hf : f * c ≤ u * m * q)
    (hp : p * c ≤ u * t * q) : f * p < limit * u := by
  refine Nat.lt_of_mul_lt_mul_right (a := c * c) ?_
  calc f * p * (c * c)
      = f * c * (p * c) := by grind
    _ ≤ u * m * q * (u * t * q) := Nat.mul_le_mul hf hp
    _ = m * t * (u * (u * q * q)) := by grind
    _ ≤ s * (u * (u * q * q)) := Nat.mul_le_mul_right _ hle
    _ = u * (u * s * q * q) := by grind
    _ < u * (limit * (c * c)) := Nat.mul_lt_mul_of_pos_left hlimit hu
    _ = limit * u * (c * c) := by grind

theorem exists_scaled_of_le {m e : Nat} (hm : 0 < m) (hlt : m < 2 ^ (64 : Nat)) (he : e ≤ 308)
    (h : m * 10 ^ e ≤ safe) : ∃ d, scaled? m e = some d := by
  have hnonneg : ¬ (e : Int) < 0 := by omega
  have hsmall : (e : Int) ≤ 308 := by omega
  obtain ⟨f, hf, -⟩ := exists_ofInt m hlt
  obtain ⟨p, hp⟩ := exists_powerOfTen e he
  have hfle := units_le_of_natural hm hf
  have hple := units_le_of_natural (Decimal.pow_ten_pos e) hp
  have hmul : f.units * p.units < beyond * unitsInOne :=
    mul_lt_of_errors unitsInOne_pos below_limit.2.1 h hfle hple
  obtain ⟨d, hd⟩ := Binary64.isSome_ofQuotient (f.negative != p.negative) unitsInOne_pos hmul
  unfold scaled?
  simp only [hf, Option.bind_eq_bind, Option.bind_some]
  rw [if_neg hnonneg]
  split
  · exact ⟨f, rfl⟩
  · rw [Int.toNat_natCast, hp, Option.bind_some]
    exact ⟨d, hd⟩

/-- The seven decimals beyond the safe ones. -/
theorem isSome_scaled_near_limit (j : Fin 8) :
    (scaled? (17976931348623150 + j) 292).isSome = true := by
  revert j
  decide +kernel

/-- A whole number that is at most the largest double as it is written is in range. -/
theorem exists_scaled_of_nat {n k : Nat} (hpos : 0 < n) (hdigits : n < 10 ^ (17 : Nat))
    (hle : n * 10 ^ k ≤ 17976931348623157 * 10 ^ (292 : Nat)) : ∃ d, scaled? n k = some d := by
  have hlt : n < 2 ^ (64 : Nat) := Nat.lt_trans hdigits (by decide)
  have hsafe := below_limit.2.2.1
  rcases Nat.lt_trichotomy k 292 with hsmall | rfl | hlarge
  · have hpow := Nat.mul_le_mul (Nat.le_of_lt hdigits) (Decimal.pow_ten_le k 291 (by omega))
    exact exists_scaled_of_le hpos hlt (by omega) (Nat.le_trans hpow below_limit.2.2.2)
  · have hscale := Decimal.pow_ten_pos 292
    have hn : n ≤ 17976931348623157 := by
      generalize 10 ^ (292 : Nat) = scale at hle hscale
      exact Nat.le_of_mul_le_mul_right hle hscale
    rcases Nat.lt_or_ge 17976931348623150 n with hnear | hfar
    · have hsome := isSome_scaled_near_limit ⟨n - 17976931348623150, by omega⟩
      rw [Nat.add_sub_of_le (Nat.le_of_lt hnear)] at hsome
      exact Option.isSome_iff_exists.1 hsome
    · refine exists_scaled_of_le hpos hlt (by decide) ?_
      rw [hsafe]
      generalize 10 ^ (292 : Nat) = scale
      exact Nat.mul_le_mul_right scale hfar
  · obtain ⟨j, rfl⟩ : ∃ j, k = j + 1 + 292 := ⟨k - 293, by omega⟩
    rw [Nat.pow_add, ← Nat.mul_assoc] at hle
    have hscale := Decimal.pow_ten_pos 292
    have hn : n * 10 ^ (j + 1) ≤ 17976931348623157 := by
      generalize 10 ^ (292 : Nat) = scale at hle hscale
      exact Nat.le_of_mul_le_mul_right hle hscale
    have hj : j + 1 < 17 := by
      refine (Nat.pow_lt_pow_iff_right (a := 10) (by decide)).1 ?_
      have hfactor : 10 ^ (j + 1) ≤ n * 10 ^ (j + 1) := Nat.le_mul_of_pos_left _ hpos
      exact Nat.lt_of_le_of_lt (Nat.le_trans hfactor hn) (by decide)
    refine exists_scaled_of_le hpos hlt (by omega) ?_
    rw [hsafe, Nat.pow_add, ← Nat.mul_assoc]
    generalize 10 ^ (292 : Nat) = scale
    refine Nat.mul_le_mul_right scale ?_
    rw [Nat.pow_succ, ← Nat.mul_assoc] at hn ⊢
    omega

/-- A decimal that was chosen for a double is in range. -/
theorem exists_scaled_of_isWritable {x : Decimal} (hx : x.IsWritable) :
    ∃ d, scaled? x.digits x.exponent = some d := by
  rcases Int.lt_or_le x.exponent 0 with hneg | hnonneg
  · exact exists_scaled_of_neg _ (Nat.lt_trans hx.lt (by decide)) _ hneg
  · have hle := hx.le hnonneg
    obtain ⟨k, hk⟩ := Int.eq_ofNat_of_zero_le hnonneg
    rw [hk] at hle ⊢
    exact exists_scaled_of_nat hx.pos hx.lt hle

end RecordBoard.Json.Numeral
