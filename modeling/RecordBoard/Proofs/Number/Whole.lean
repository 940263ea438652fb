import RecordBoard.Proofs.Json.Range

/-!
# Whole numbers as doubles

A natural number is a double if it has no more than fifty-three bits before its last zeros.  Nothing
is rounded on the way there, and rounding such a double up or down gives the number back.  All
numbers up to `2 ^ 53` are of this kind, and so are the powers of ten up to `10 ^ 22`, of which five
is the only odd factor.

## Main definitions

* `IsRepresentable` — a natural number that is a double.

## Main results

* `units_of_dvd` — what is cut without a remainder is not rounded.
* `isRepresentable_iff_dvd` — which numbers are representable.
* `isRepresentable_iff` — the representable numbers are the magnitudes of doubles.
* `units_ofInt`, `units_powerOfTen` — the double of a representable number, or power of ten, is that
  number.
* `ofInt_of_le` — so is that of a natural number up to `2 ^ 53`, also when it is rounded to a whole
  number.
-/

namespace RecordBoard

-- Powers are those of the core library, whatever else an importing module knows.
attribute [local instance (2000)] instPowNat

theorem roundHalfEven_of_dvd {num den : Nat} (hden : 0 < den) (h : den ∣ num) :
    roundHalfEven num den = num / den := by
  have hrest : num % den = 0 := Nat.mod_eq_zero_of_dvd h
  simp only [roundHalfEven, hrest, Nat.mul_zero, if_pos hden]

namespace Binary64

/-- What is cut at its doublings without a remainder is not rounded. -/
theorem units_of_dvd {negative : Bool} {num : Nat} {d : Binary64}
    (hdvd : 2 ^ shiftFor num ∣ num) (h : ofQuotient? negative num 1 = some d) : d.units = num := by
  have hunits := units_ofQuotient Nat.one_pos h
  rw [Nat.div_one, Nat.one_mul, roundHalfEven_of_dvd (Nat.two_pow_pos _) hdvd] at hunits
  rw [hunits, Nat.div_mul_cancel hdvd]

/-- A natural number of at most fifty-three bits, with zeros behind them. -/
def IsRepresentable (n : Nat) : Prop := ∃ m k : Nat, m < 2 ^ (53 : Nat) ∧ n = m * 2 ^ k

theorem isRepresentable_of_le {n : Nat} (h : n ≤ 2 ^ (53 : Nat)) : IsRepresentable n := by
  rcases Nat.lt_or_eq_of_le h with hlt | rfl
  · exact ⟨n, 0, hlt, (Nat.mul_one n).symm⟩
  · exact ⟨1, 53, by decide, (Nat.one_mul _).symm⟩

theorem isRepresentable_pow_ten {k : Nat} (h : k ≤ 22) : IsRepresentable (10 ^ k) := by
  refine ⟨5 ^ k, k, ?_, (Nat.mul_pow 5 2 k)⟩
  exact Nat.lt_of_le_of_lt (Nat.pow_le_pow_right (by decide) h) (by decide)

/-- A number is representable if it is cut at its doublings without a remainder. -/
theorem isRepresentable_iff_dvd {n : Nat} : IsRepresentable n ↔ 2 ^ shiftFor n ∣ n := by
  constructor
  · rintro ⟨m, k, hm, rfl⟩
    refine Nat.dvd_trans (Nat.pow_dvd_pow 2 (shiftFor_le ?_)) (Nat.dvd_mul_left _ m)
    rw [Nat.pow_add, Nat.mul_comm]
    exact Nat.mul_lt_mul_of_pos_left hm (Nat.two_pow_pos k)
  · rintro ⟨m, hm⟩
    refine ⟨m, shiftFor n, Nat.lt_of_mul_lt_mul_left
      (a := 2 ^ shiftFor n) ?_, by rw [Nat.mul_comm, ← hm]⟩
    rw [← hm, ← Nat.pow_add]
    exact lt_two_pow_shiftFor n

instance (n : Nat) : Decidable (IsRepresentable n) :=
  decidable_of_iff _ isRepresentable_iff_dvd.symm

/-- Its units are representable too. -/
theorem isRepresentable_units {n : Nat} (h : IsRepresentable n) :
    IsRepresentable (unitsInOne * n) := by
  obtain ⟨m, k, hm, rfl⟩ := h
  unfold unitsInOne
  generalize (1074 : Nat) = j
  exact ⟨m, j + k, hm, by rw [Nat.pow_add, Nat.mul_left_comm]⟩

/-- What is a whole number of ones is representable. -/
theorem isRepresentable_of_units {d : Binary64} {n : Nat} (h : d.units = unitsInOne * n) :
    IsRepresentable n := by
  have hm := d.mantissa_lt
  unfold units unitsInOne at h
  generalize (1074 : Nat) = j at h
  rcases Nat.le_total j d.shift with hle | hle
  · refine ⟨d.mantissa, d.shift - j, hm, Nat.eq_of_mul_eq_mul_left (Nat.two_pow_pos j) ?_⟩
    rw [← h, Nat.mul_left_comm, ← Nat.pow_add, Nat.add_sub_cancel' hle]
  · refine isRepresentable_of_le (Nat.le_of_lt (Nat.lt_of_le_of_lt ?_ hm))
    refine Nat.le_of_mul_le_mul_left ?_ (Nat.two_pow_pos d.shift)
    rw [Nat.mul_comm _ d.mantissa, h]
    exact Nat.mul_le_mul_right n (Nat.pow_le_pow_right (by decide) hle)

/-- The double of a representable number is that number. -/
theorem units_ofInt {n : Nat} {d : Binary64} (h : IsRepresentable n) (hd : ofInt? n = some d) :
    d.units = unitsInOne * n := by
  rw [ofInt?, Int.natAbs_natCast] at hd
  exact units_of_dvd (isRepresentable_iff_dvd.1 (isRepresentable_units h)) hd

/-- Only a representable number is its own double. -/
theorem isRepresentable_iff {n : Nat} {d : Binary64} (hd : ofInt? n = some d) :
    IsRepresentable n ↔ d.units = unitsInOne * n :=
  ⟨fun h => units_ofInt h hd, isRepresentable_of_units⟩

/-- The double of a small power of ten is that power. -/
theorem units_powerOfTen {k : Nat} {d : Binary64} (h : k ≤ 22) (hd : powerOfTen? k = some d) :
    d.units = unitsInOne * 10 ^ k :=
  units_of_dvd (isRepresentable_iff_dvd.1 (isRepresentable_units (isRepresentable_pow_ten h))) hd

theorem negative_ofInt {n : Nat} {d : Binary64} (hd : ofInt? n = some d) : d.negative = false :=
  (negative_ofQuotient hd).trans (decide_eq_false (by omega))

/-- The double of any natural number is a whole number: what is cut off are fractions, or nothing
is. -/
theorem exists_units_of_ofInt {n : Nat} {d : Binary64} (hd : ofInt? n = some d) :
    ∃ k, d.units = unitsInOne * k := by
  rw [ofInt?, Int.natAbs_natCast] at hd
  have hunits := units_ofQuotient Nat.one_pos hd
  rw [Nat.div_one, Nat.one_mul] at hunits
  unfold unitsInOne at hd hunits ⊢
  generalize (1074 : Nat) = j at hd hunits ⊢
  rcases Nat.le_total (shiftFor (2 ^ j * n)) j with hle | hle
  · exact ⟨n, units_of_dvd (Nat.dvd_trans (Nat.pow_dvd_pow 2 hle) (Nat.dvd_mul_right _ n)) hd⟩
  · obtain ⟨k, hk⟩ := Nat.exists_eq_add_of_le hle
    rw [hk, Nat.pow_add, Nat.mul_left_comm] at hunits
    exact ⟨_, hunits⟩

/-- A magnitude is rounded up to the least whole number that is not below it. -/
theorem ceil_le_iff {d : Binary64} {n : Nat} : d.ceil ≤ n ↔ d.units ≤ unitsInOne * n := by
  have hpos := unitsInOne_pos
  rw [ceil, ← Nat.lt_succ_iff, Nat.div_lt_iff_lt_mul hpos, Nat.mul_comm _ unitsInOne, Nat.mul_succ]
  omega

/-- A double that is a whole number is rounded up to that number, -/
theorem ceil_of_units {d : Binary64} {n : Nat} (h : d.units = unitsInOne * n) : d.ceil = n := by
  refine Nat.le_antisymm (ceil_le_iff.2 (Nat.le_of_eq h))
    (Nat.le_of_mul_le_mul_left ?_ unitsInOne_pos)
  rw [← h]
  exact ceil_le_iff.1 (Nat.le_refl _)

/-- and rounded down to it. -/
theorem floor_of_units {d : Binary64} {n : Nat} (h : d.units = unitsInOne * n) : d.floor = n := by
  rw [floor, h, Nat.mul_div_cancel_left n unitsInOne_pos]

/-- A double below `2 ^ 64` is not above the last whole number below it. -/
theorem ceil_lt_of_units_lt {d : Binary64} (h : d.units < unitsInOne * 2 ^ (64 : Nat)) :
    d.ceil < 2 ^ (64 : Nat) := by
  have hm := d.mantissa_lt
  refine Nat.lt_of_le_of_lt (ceil_le_iff.2 ?_)
    (show (2 ^ (53 : Nat) - 1) * 2 ^ (11 : Nat) < 2 ^ (64 : Nat) by decide)
  unfold units unitsInOne at h ⊢
  generalize (1074 : Nat) = j at h ⊢
  have hshift : d.shift ≤ j + 11 := by
    refine Nat.le_of_not_lt fun hlt => ?_
    have hfull := d.normalised.resolve_left (Nat.ne_of_gt (Nat.lt_of_le_of_lt (Nat.zero_le _) hlt))
    have hpow : 2 ^ (j + 12) ≤ 2 ^ d.shift := Nat.pow_le_pow_right (by decide) hlt
    have hle := Nat.mul_le_mul hfull hpow
    rw [Nat.pow_add] at hle
    omega
  have hpow : 2 ^ d.shift ≤ 2 ^ (j + 11) := Nat.pow_le_pow_right (by decide) hshift
  have hle := Nat.mul_le_mul (Nat.le_of_lt_succ hm) hpow
  rwa [Nat.pow_add, Nat.mul_left_comm] at hle

/-- The double of a natural number up to `2 ^ 53` is that number. -/
theorem ofInt_of_le {n : Nat} (h : n ≤ 2 ^ (53 : Nat)) :
    ∃ d, ofInt? n = some d ∧ d.isNonNegative = true ∧ d.ceil = n ∧ d.floor = n := by
  obtain ⟨d, hd, -⟩ := Json.Numeral.exists_ofInt n (Nat.lt_of_le_of_lt h (by decide))
  have hunits := units_ofInt (isRepresentable_of_le h) hd
  refine ⟨d, hd, ?_, ceil_of_units hunits, floor_of_units hunits⟩
  rw [isNonNegative, negative_ofInt hd]
  rfl

end Binary64

end RecordBoard
