import RecordBoard.Number.Binary64

/-!
# How far rounding goes

All doubles that are computed come out of `Binary64.ofQuotient?`, so what there is to know about
their size is known once it is known of that function: by how much the double can differ from the
quotient, and for which quotients there is a double at all.  Both follow from the error of
`roundHalfEven`, which is at most one half, and from the fact that the mantissa of a quotient that
was cut is full.

A bound on a quotient is stated as a bound on its numerator, with the denominator on the other
side: nothing here divides.

## Main results

* `roundHalfEven_cases` — which way a quotient is rounded.
* `two_mul_roundHalfEven_le`, `two_mul_le_roundHalfEven` — the error of rounding.
* `negative_ofQuotient`, `units_ofQuotient` — the sign and the magnitude of the double nearest to a
  quotient.
* `units_mul_le`, `le_units_mul` — it differs from the quotient by one part in `2 ^ 53` at most.
* `isSome_ofQuotient` — below the middle between the largest double and the next there is one.
-/

namespace RecordBoard

-- Powers are those of the core library, whatever else an importing module knows: hence the
-- instance, and the type of each exponent.
attribute [local instance (2000)] instPowNat

/-! ## Rounding to a natural -/

/-- A quotient is rounded down if its rest is one half at most, and up if it is one half at
least. -/
theorem roundHalfEven_cases (num den : Nat) :
    roundHalfEven num den = num / den ∧ 2 * (num % den) ≤ den ∨
      roundHalfEven num den = num / den + 1 ∧ den ≤ 2 * (num % den) := by
  simp only [roundHalfEven]
  split
  · omega
  split
  · omega
  -- The quotient is in the middle: which way it goes depends on which of the two is even.
  · rcases Nat.mod_two_eq_zero_or_one (num / den) with heven | hodd <;> omega

/-- Rounding goes up by one half at most. -/
theorem two_mul_roundHalfEven_le (num den : Nat) :
    2 * (den * roundHalfEven num den) ≤ 2 * num + den := by
  have hnum : den * (num / den) + num % den = num := Nat.div_add_mod num den
  rcases roundHalfEven_cases num den with ⟨heq, hrest⟩ | ⟨heq, hrest⟩
  · rw [heq]
    omega
  · rw [heq, Nat.mul_add, Nat.mul_one]
    omega

/-- Rounding goes down by one half at most. -/
theorem two_mul_le_roundHalfEven (num : Nat) {den : Nat} (hden : 0 < den) :
    2 * num ≤ 2 * (den * roundHalfEven num den) + den := by
  have hnum : den * (num / den) + num % den = num := Nat.div_add_mod num den
  have hmod : num % den < den := Nat.mod_lt num hden
  rcases roundHalfEven_cases num den with ⟨heq, hrest⟩ | ⟨heq, hrest⟩
  · rw [heq]
    omega
  · rw [heq, Nat.mul_add, Nat.mul_one]
    omega

/-- What lies below the middle above a natural is not rounded beyond it. -/
theorem roundHalfEven_le {num den k : Nat} (h : 2 * num < den * (2 * k + 1)) :
    roundHalfEven num den ≤ k := by
  have hup := two_mul_roundHalfEven_le num den
  apply Nat.le_of_not_lt
  intro hlt
  have hmul : den * (k + 1) ≤ den * roundHalfEven num den := Nat.mul_le_mul_left den hlt
  rw [Nat.mul_add, Nat.mul_one] at hmul h
  rw [Nat.mul_left_comm] at h
  omega

/-- Rounding at most doubles. -/
theorem mul_roundHalfEven_le_two_mul (num den : Nat) :
    den * roundHalfEven num den ≤ 2 * num := by
  have hup := two_mul_roundHalfEven_le num den
  rcases Nat.eq_zero_or_pos (roundHalfEven num den) with hzero | hpos
  · rw [hzero]
    omega
  · have hone : den * 1 ≤ den * roundHalfEven num den := Nat.mul_le_mul_left den hpos
    omega

namespace Binary64

/-! ## The double nearest to a quotient -/

theorem unitsInOne_pos : 0 < unitsInOne := by
  unfold unitsInOne
  generalize (1074 : Nat) = k
  exact Nat.two_pow_pos k

/-- A quotient below `2 ^ (k + 53)` is cut at `k` doublings at most. -/
theorem shiftFor_le {q k : Nat} (h : q < 2 ^ (k + 53)) : shiftFor q ≤ k := by
  unfold shiftFor
  rcases Nat.eq_zero_or_pos q with rfl | hpos
  · simp
  · have hlog := (Nat.log2_lt (Nat.ne_of_gt hpos)).2 h
    omega

theorem lt_two_pow_shiftFor (q : Nat) : q < 2 ^ (shiftFor q + 53) := by
  refine Nat.lt_of_lt_of_le Nat.lt_log2_self (Nat.pow_le_pow_right (by decide) ?_)
  unfold shiftFor
  omega

/-- A quotient cut at its doublings is rounded to fifty-three bits, or to the next power of two. -/
theorem roundHalfEven_shiftFor_le (num : Nat) {den : Nat} (hden : 0 < den) :
    roundHalfEven num (den * 2 ^ shiftFor (num / den)) ≤ 2 ^ (53 : Nat) := by
  have hlt : num < den * 2 ^ (shiftFor (num / den) + 53) := by
    have := lt_two_pow_shiftFor (num / den)
    rwa [Nat.div_lt_iff_lt_mul hden, Nat.mul_comm] at this
  rw [Nat.pow_add, ← Nat.mul_assoc] at hlt
  refine roundHalfEven_le ?_
  rw [Nat.mul_add, Nat.mul_one, Nat.mul_left_comm]
  omega

/-- What a double is that a quotient is rounded to: its mantissa is the rounded one, or that has a
bit too many. -/
theorem cases_ofQuotient {negative : Bool} {num den : Nat} {d : Binary64}
    (h : ofQuotient? negative num den = some d) :
    d.negative = negative ∧
      (d.units = roundHalfEven num (den * 2 ^ shiftFor (num / den)) * 2 ^ shiftFor (num / den) ∨
        2 ^ (53 : Nat) ≤ roundHalfEven num (den * 2 ^ shiftFor (num / den)) ∧
          d.units = 2 ^ (52 : Nat) * 2 ^ (shiftFor (num / den) + 1)) := by
  unfold ofQuotient? at h
  dsimp only at h
  split at h
  next =>
    split at h
    · cases h
      exact ⟨rfl, .inl rfl⟩
    · cases h
  next hfull =>
    split at h
    · cases h
      exact ⟨rfl, .inr ⟨Nat.le_of_not_lt hfull, rfl⟩⟩
    · cases h

theorem negative_ofQuotient {negative : Bool} {num den : Nat} {d : Binary64}
    (h : ofQuotient? negative num den = some d) : d.negative = negative :=
  (cases_ofQuotient h).1

/-- The magnitude of the double nearest to a quotient. -/
theorem units_ofQuotient {negative : Bool} {num den : Nat} {d : Binary64} (hden : 0 < den)
    (h : ofQuotient? negative num den = some d) :
    d.units = roundHalfEven num (den * 2 ^ shiftFor (num / den)) * 2 ^ shiftFor (num / den) := by
  rcases (cases_ofQuotient h).2 with hunits | ⟨hfull, hunits⟩
  · exact hunits
  · have hdouble := Nat.pow_succ (m := shiftFor (num / den)) (n := 2)
    rw [hunits, Nat.le_antisymm (roundHalfEven_shiftFor_le num hden) hfull, hdouble]
    omega

theorem units_mul_ofQuotient {negative : Bool} {num den : Nat} {d : Binary64} (hden : 0 < den)
    (h : ofQuotient? negative num den = some d) :
    d.units * den =
      den * 2 ^ shiftFor (num / den) * roundHalfEven num (den * 2 ^ shiftFor (num / den)) := by
  rw [units_ofQuotient hden h, Nat.mul_comm _ den, Nat.mul_comm _ (2 ^ _), ← Nat.mul_assoc]

/-- The double nearest to a quotient is at most twice as large. -/
theorem units_mul_le_two_mul {negative : Bool} {num den : Nat} {d : Binary64} (hden : 0 < den)
    (h : ofQuotient? negative num den = some d) : d.units * den ≤ 2 * num := by
  rw [units_mul_ofQuotient hden h]
  exact mul_roundHalfEven_le_two_mul num _

/-- A quotient of at least one is at most twice as large as the double nearest to it. -/
theorem le_two_mul_units_mul {negative : Bool} {num den : Nat} {d : Binary64} (hden : 0 < den)
    (hone : den ≤ num) (h : ofQuotient? negative num den = some d) :
    num ≤ 2 * (d.units * den) := by
  have hpos : 0 < den * 2 ^ shiftFor (num / den) := Nat.mul_pos hden (Nat.two_pow_pos _)
  have hround : 1 ≤ roundHalfEven num (den * 2 ^ shiftFor (num / den)) := by
    refine Nat.le_trans ?_ (div_le_roundHalfEven _ _)
    by_cases hshift : shiftFor (num / den) = 0
    · rw [hshift, Nat.pow_zero, Nat.mul_one]
      exact (Nat.le_div_iff_mul_le hden).2 (by omega)
    · exact Nat.le_trans (by decide) (full_mantissa num den hshift)
  have hlt := two_mul_le_roundHalfEven num hpos
  have hmul := Nat.mul_le_mul_left (den * 2 ^ shiftFor (num / den)) hround
  rw [units_mul_ofQuotient hden h]
  omega

/-- A quotient cut at its doublings is not smaller than a full mantissa of them. -/
private theorem full_le_num {num den : Nat} (hden : 0 < den)
    (hfull : 2 ^ (52 : Nat) * den ≤ num) :
    den * 2 ^ shiftFor (num / den) * 2 ^ (52 : Nat) ≤ num := by
  have hq : 2 ^ (52 : Nat) ≤ num / den := (Nat.le_div_iff_mul_le hden).2 hfull
  have hne : num / den ≠ 0 := by
    intro hzero
    rw [hzero] at hq
    exact absurd hq (by decide)
  have hlog : 52 ≤ (num / den).log2 := (Nat.le_log2 hne).2 hq
  have hself : 2 ^ (shiftFor (num / den) + 52) ≤ num / den := by
    have := Nat.log2_self_le hne
    rwa [show (num / den).log2 = shiftFor (num / den) + 52 by unfold shiftFor; omega] at this
  rw [Nat.pow_add] at hself
  calc den * 2 ^ shiftFor (num / den) * 2 ^ (52 : Nat)
      = den * (2 ^ shiftFor (num / den) * 2 ^ (52 : Nat)) := Nat.mul_assoc ..
    _ ≤ den * (num / den) := Nat.mul_le_mul_left den hself
    _ ≤ num := Nat.mul_div_le num den

/-- The double nearest to a quotient exceeds it by one part in `2 ^ 53` at most. -/
theorem units_mul_le {negative : Bool} {num den : Nat} {d : Binary64} (hden : 0 < den)
    (hfull : 2 ^ (52 : Nat) * den ≤ num) (h : ofQuotient? negative num den = some d) :
    d.units * den * 2 ^ (53 : Nat) ≤ num * (2 ^ (53 : Nat) + 1) := by
  have hup := two_mul_roundHalfEven_le num (den * 2 ^ shiftFor (num / den))
  have hcut := full_le_num hden hfull
  rw [units_mul_ofQuotient hden h]
  grind

/-- It falls short of it by that much at most. -/
theorem le_units_mul {negative : Bool} {num den : Nat} {d : Binary64} (hden : 0 < den)
    (hfull : 2 ^ (52 : Nat) * den ≤ num) (h : ofQuotient? negative num den = some d) :
    num * 2 ^ (53 : Nat) ≤ d.units * den * 2 ^ (53 : Nat) + num := by
  have hdown := two_mul_le_roundHalfEven num
    (Nat.mul_pos hden (Nat.two_pow_pos (shiftFor (num / den))))
  have hcut := full_le_num hden hfull
  rw [units_mul_ofQuotient hden h]
  grind

/-- The middle between the largest double with `k + 1` doublings and its successor. -/
def middle (k : Nat) : Nat := (2 ^ (54 : Nat) - 1) * 2 ^ k

theorem middle_le (k : Nat) : middle k ≤ 2 ^ (k + 1 + 53) := by
  rw [middle, Nat.add_assoc, Nat.pow_add, Nat.mul_comm]
  exact Nat.mul_le_mul_left _ (Nat.sub_le _ 1)

theorem two_mul_middle (k : Nat) :
    2 * middle k = 2 ^ (k + 1) * (2 * (2 ^ (53 : Nat) - 1) + 1) := by
  rw [middle, Nat.pow_succ]
  omega

/-- Below that middle, nothing is rounded beyond the largest mantissa. -/
theorem roundHalfEven_le_of_lt_middle {num den : Nat} (k : Nat)
    (h : num < middle k * den) :
    roundHalfEven num (den * 2 ^ (k + 1)) ≤ 2 ^ (53 : Nat) - 1 := by
  refine roundHalfEven_le ?_
  rw [Nat.mul_assoc, ← two_mul_middle, Nat.mul_left_comm, Nat.mul_comm den]
  exact Nat.mul_lt_mul_of_pos_left h (by decide)

/-- The middle between the largest double and the next one that there would be. -/
def beyond : Nat := middle 2044

/-- Below the middle between the largest double and the next there is a nearest double. -/
theorem isSome_ofQuotient (negative : Bool) {num den : Nat} (hden : 0 < den)
    (h : num < beyond * den) : ∃ d, ofQuotient? negative num den = some d := by
  have hshift : shiftFor (num / den) ≤ 2044 + 1 := by
    apply shiftFor_le
    exact Nat.lt_of_lt_of_le ((Nat.div_lt_iff_lt_mul hden).2 h) (middle_le 2044)
  have hround : ¬ roundHalfEven num (den * 2 ^ shiftFor (num / den)) < 2 ^ (53 : Nat) →
      shiftFor (num / den) + 1 ≤ 2045 := by
    intro hnot
    refine Nat.succ_le_of_lt (Nat.lt_of_le_of_ne hshift ?_)
    intro heq
    have hle := roundHalfEven_le_of_lt_middle 2044 h
    rw [show 2044 + 1 = shiftFor (num / den) from heq.symm] at hle
    omega
  unfold ofQuotient?
  dsimp only
  split
  · exact ⟨_, rfl⟩
  · rw [dif_pos (hround ‹_›)]
    exact ⟨_, rfl⟩

end Binary64

end RecordBoard
