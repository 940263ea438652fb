import RecordBoard.Proofs.Number.Shortest

/-!
# What is rounded to a double

`Decimal.readsBack` tests whether a decimal lies in the interval of a double, and
`Binary64.ofQuotient?` rounds a quotient.  The two know nothing of each other: the one compares in
quarter units, the other cuts a quotient at its doublings and looks at what is left.  Here they
meet. What reads back to a double is rounded to it, its magnitude being a quotient like any other.

There are two ways into the interval.  Above the double, and below it as far as the mantissa stays
full, a quotient is cut at as many doublings as the double has.  Below the least full mantissa it is
cut at one less, and reaches the double only by rounding up to a power of two.

## Main results

* `roundHalfEven_eq` — what lies within one half of a natural is rounded to it.
* `ofQuotient?_congr` — a quotient is rounded alike, however it is written.
* `ofQuotient?_of_nearby` — what lies in the interval of a double is rounded to it.
* `ofQuotient?_of_readsBack` — so is a decimal that reads back to it.
-/

namespace RecordBoard

-- Powers are those of the core library, whatever else an importing module knows: hence the
-- instance, and the type of each exponent.
attribute [local instance (2000)] instPowNat

/-! ## Rounding to a natural -/

/-- What lies within one half of a natural is rounded to it, at either end if it is even. -/
theorem roundHalfEven_eq {num den m : Nat} (hden : 0 < den)
    (hlow : 2 * (den * m) ≤ 2 * num + den) (hhigh : 2 * num ≤ 2 * (den * m) + den)
    (heven : 2 * (den * m) = 2 * num + den ∨ 2 * num = 2 * (den * m) + den → m % 2 = 0) :
    roundHalfEven num den = m := by
  have hnum : den * (num / den) + num % den = num := Nat.div_add_mod num den
  have hmod : num % den < den := Nat.mod_lt num hden
  rcases Nat.lt_or_ge num (den * m) with hbelow | habove
  · obtain ⟨q, rfl⟩ : ∃ q, m = q + 1 := by
      refine Nat.exists_eq_succ_of_ne_zero fun hzero => ?_
      rw [hzero, Nat.mul_zero] at hbelow
      omega
    rw [Nat.mul_succ] at hlow heven hbelow
    have hquot : num / den = q := by
      refine Nat.div_eq_of_lt_le ?_ ?_
      · rw [Nat.mul_comm]
        omega
      · rw [Nat.mul_comm, Nat.mul_succ]
        omega
    rw [hquot] at hnum
    simp only [roundHalfEven, hquot]
    split
    · omega
    split
    · rfl
    · have := heven (.inl (by omega))
      omega
  · have hquot : num / den = m := by
      refine Nat.div_eq_of_lt_le ?_ ?_
      · rw [Nat.mul_comm]
        exact habove
      · rw [Nat.mul_comm, Nat.mul_succ]
        omega
    rw [hquot] at hnum
    simp only [roundHalfEven, hquot]
    split
    · rfl
    split
    · omega
    · have := heven (.inr (by omega))
      omega

/-- A common factor does not matter. -/
theorem roundHalfEven_mul_left {c : Nat} (hc : 0 < c) (num den : Nat) :
    roundHalfEven (c * num) (c * den) = roundHalfEven num den := by
  have hquot : c * num / (c * den) = num / den := Nat.mul_div_mul_left num den hc
  have hrest : c * num % (c * den) = c * (num % den) := Nat.mul_mod_mul_left c num den
  have hlt : ∀ a b, (2 * (c * a) < c * b) = (2 * a < b) := fun a b => by
    rw [Nat.mul_left_comm, Nat.mul_lt_mul_left hc]
  have hgt : ∀ a b, (c * a < 2 * (c * b)) = (a < 2 * b) := fun a b => by
    rw [Nat.mul_left_comm, Nat.mul_lt_mul_left hc]
  simp only [roundHalfEven, hquot, hrest, hlt, hgt]

namespace Binary64

/-! ## Rounding to a double -/

theorem ofQuotient?_mul_left (negative : Bool) {c : Nat} (hc : 0 < c) (num den : Nat) :
    ofQuotient? negative (c * num) (c * den) = ofQuotient? negative num den := by
  have hquot : c * num / (c * den) = num / den := Nat.mul_div_mul_left num den hc
  unfold ofQuotient?
  simp only [hquot, Nat.mul_assoc, roundHalfEven_mul_left hc]

/-- A quotient is rounded alike, however it is written. -/
theorem ofQuotient?_congr (negative : Bool) {num den num' den' : Nat} (hden : 0 < den)
    (hden' : 0 < den') (h : num * den' = num' * den) :
    ofQuotient? negative num den = ofQuotient? negative num' den' := by
  rw [← ofQuotient?_mul_left negative hden' num den, ← ofQuotient?_mul_left negative hden num' den',
    Nat.mul_comm den', h, Nat.mul_comm num', Nat.mul_comm den']

/-- A quotient is cut where its size says. -/
theorem shiftFor_eq {q k : Nat} (hlow : 2 ^ (k + 52) ≤ q) (hhigh : q < 2 ^ (k + 53)) :
    shiftFor q = k := by
  refine Nat.le_antisymm (shiftFor_le hhigh) ?_
  have hne : q ≠ 0 := Nat.ne_of_gt (Nat.lt_of_lt_of_le (Nat.two_pow_pos _) hlow)
  have hlog := (Nat.le_log2 hne).2 hlow
  unfold shiftFor
  omega

/-- A double whose mantissa is what a quotient is rounded to. -/
theorem ofQuotient?_of_shift (negative : Bool) {d : Binary64} {num den : Nat}
    (hshift : shiftFor (num / den) = d.shift)
    (hround : roundHalfEven num (den * 2 ^ d.shift) = d.mantissa) :
    ofQuotient? negative num den = some { d with negative } := by
  unfold ofQuotient?
  simp only [hshift, hround]
  rw [dif_pos d.mantissa_lt, dif_pos d.shift_le]

/-- A double with the least full mantissa, that a quotient with one doubling less is rounded up
to. -/
theorem ofQuotient?_of_carry (negative : Bool) {d : Binary64} {num den : Nat}
    (hfull : d.mantissa = 2 ^ (52 : Nat)) (hshift : shiftFor (num / den) + 1 = d.shift)
    (hround : roundHalfEven num (den * 2 ^ shiftFor (num / den)) = 2 ^ (53 : Nat)) :
    ofQuotient? negative num den = some { d with negative } := by
  have hle := d.shift_le
  rw [← hshift] at hle
  unfold ofQuotient?
  simp only [hround]
  rw [dif_neg (Nat.lt_irrefl _), dif_pos hle]
  cases d
  dsimp only at hfull hshift
  simp only [hfull, hshift]

/-- A quotient in the interval of a double, whose ends belong to it if the mantissa is even. -/
structure Nearby (d : Binary64) (num den : Nat) : Prop where
  /-- It is not below the interval. -/
  low : den * Decimal.lowerEnd d ≤ 4 * num
  /-- It is not above. -/
  high : 4 * num ≤ den * Decimal.upperEnd d
  /-- It is an end of it only if the mantissa is even. -/
  even : 4 * num = den * Decimal.lowerEnd d ∨ 4 * num = den * Decimal.upperEnd d →
    d.mantissa % 2 = 0

/-- The upper end lies half a gap above the double. -/
theorem mul_upperEnd (d : Binary64) (den : Nat) :
    den * Decimal.upperEnd d = 4 * (den * 2 ^ d.shift * d.mantissa) + 2 * (den * 2 ^ d.shift) := by
  rw [Decimal.upperEnd, units, Nat.mul_add, Nat.mul_left_comm, Nat.mul_left_comm _ 2,
    Nat.mul_comm d.mantissa, ← Nat.mul_assoc den]

/-- How far the interval reaches down: half a gap, or a quarter under the least full mantissa. -/
def reach (d : Binary64) : Nat :=
  if d.mantissa = 2 ^ (52 : Nat) ∧ d.shift ≠ 0 then 2 ^ d.shift else 2 * 2 ^ d.shift

theorem reach_le (d : Binary64) : d.reach ≤ 2 * 2 ^ d.shift := by
  unfold reach
  split <;> omega

theorem lowerEnd_eq (d : Binary64) : Decimal.lowerEnd d = 4 * d.units - d.reach := by
  unfold Decimal.lowerEnd reach
  split <;> rfl

/-- The lower end lies that much below the double. -/
theorem mul_lowerEnd (d : Binary64) (den : Nat) :
    den * Decimal.lowerEnd d = 4 * (den * 2 ^ d.shift * d.mantissa) - den * d.reach := by
  rw [lowerEnd_eq, Nat.mul_sub, units, Nat.mul_left_comm,
    Nat.mul_comm d.mantissa, ← Nat.mul_assoc den]

theorem mul_reach_le (d : Binary64) (den : Nat) : den * d.reach ≤ 2 * (den * 2 ^ d.shift) := by
  rw [Nat.mul_left_comm]
  exact Nat.mul_le_mul_left den d.reach_le

/-- A quotient that is cut at the doublings of the double. -/
theorem ofQuotient?_of_nearby_of_le (negative : Bool) {d : Binary64} {num den : Nat}
    (hden : 0 < den) (h : d.Nearby num den)
    (hcut : d.shift ≠ 0 → den * 2 ^ d.shift * 2 ^ (52 : Nat) ≤ num) :
    ofQuotient? negative num den = some { d with negative } := by
  have hgap : 0 < den * 2 ^ d.shift := Nat.mul_pos hden (Nat.two_pow_pos _)
  have hlow := h.low
  have hhigh := h.high
  have heven := h.even
  rw [mul_lowerEnd] at hlow heven
  rw [mul_upperEnd] at hhigh heven
  have hreach := mul_reach_le d den
  have hbelow : num < 2 ^ (d.shift + 53) * den := by
    have hmantissa := Nat.mul_le_mul_left (den * 2 ^ d.shift) (Nat.succ_le_of_lt d.mantissa_lt)
    rw [Nat.mul_succ] at hmantissa
    rw [Nat.mul_comm, Nat.pow_add, ← Nat.mul_assoc]
    omega
  refine ofQuotient?_of_shift negative ?_ (roundHalfEven_eq hgap ?_ ?_ ?_)
  · by_cases hzero : d.shift = 0
    · rw [hzero] at hbelow ⊢
      exact Nat.le_zero.1 (shiftFor_le ((Nat.div_lt_iff_lt_mul hden).2 hbelow))
    · refine shiftFor_eq ((Nat.le_div_iff_mul_le hden).2 ?_) ((Nat.div_lt_iff_lt_mul hden).2 hbelow)
      rw [Nat.mul_comm, Nat.pow_add, ← Nat.mul_assoc]
      exact hcut hzero
  · omega
  · omega
  · intro htie
    exact heven (by omega)

/-- A quotient that is rounded up to the power of two that the double is. -/
theorem ofQuotient?_of_nearby_of_lt (negative : Bool) {d : Binary64} {num den : Nat}
    (hden : 0 < den) (h : d.Nearby num den) (hshift : d.shift ≠ 0)
    (hcut : num < den * 2 ^ d.shift * 2 ^ (52 : Nat)) :
    ofQuotient? negative num den = some { d with negative } := by
  have hlow := h.low
  rw [mul_lowerEnd] at hlow
  have hfull : d.mantissa = 2 ^ (52 : Nat) := by
    refine Nat.le_antisymm (Nat.le_of_not_lt fun hlt => ?_) (d.normalised.resolve_left hshift)
    have hmantissa := Nat.mul_le_mul_left (den * 2 ^ d.shift) (Nat.succ_le_of_lt hlt)
    have hreach := mul_reach_le d den
    rw [Nat.mul_succ] at hmantissa
    omega
  rw [reach, if_pos ⟨hfull, hshift⟩, hfull] at hlow
  obtain ⟨k, hk⟩ : ∃ k, d.shift = k + 1 := Nat.exists_eq_succ_of_ne_zero hshift
  have hgap : 0 < den * 2 ^ k := Nat.mul_pos hden (Nat.two_pow_pos _)
  have hdouble : den * 2 ^ d.shift = 2 * (den * 2 ^ k) := by
    rw [hk, Nat.pow_succ, Nat.mul_comm _ 2, Nat.mul_left_comm]
  rw [hdouble, Nat.mul_assoc] at hlow hcut
  have hcutAt : shiftFor (num / den) = k := by
    refine shiftFor_eq ((Nat.le_div_iff_mul_le hden).2 ?_) ((Nat.div_lt_iff_lt_mul hden).2 ?_)
    · rw [Nat.mul_comm, Nat.pow_add, ← Nat.mul_assoc]
      omega
    · rw [Nat.mul_comm, Nat.pow_add, ← Nat.mul_assoc]
      omega
  refine ofQuotient?_of_carry negative hfull (by rw [hcutAt, hk]) ?_
  rw [hcutAt]
  exact roundHalfEven_eq hgap (by omega) (by omega) fun _ => by decide

/-- What lies in the interval of a double is rounded to it. -/
theorem ofQuotient?_of_nearby (negative : Bool) {d : Binary64} {num den : Nat} (hden : 0 < den)
    (h : d.Nearby num den) : ofQuotient? negative num den = some { d with negative } := by
  by_cases hcut : d.shift ≠ 0 ∧ num < den * 2 ^ d.shift * 2 ^ (52 : Nat)
  · exact ofQuotient?_of_nearby_of_lt negative hden h hcut.1 hcut.2
  · exact ofQuotient?_of_nearby_of_le negative hden h
      fun hshift => Nat.le_of_not_lt fun hlt => hcut ⟨hshift, hlt⟩

/-! ## Decimals that read back -/

/-- A decimal that reads back lies in the interval. -/
theorem nearby_of_readsBack {d : Binary64} {x : Decimal} (h : Decimal.readsBack d x = true) :
    d.Nearby (Decimal.step x.exponent * x.digits) (10 ^ (-x.exponent).toNat) := by
  cases x with | mk n e =>
  obtain ⟨hlow, hhigh⟩ := Decimal.between_of_readsBack h
  refine ⟨hlow, hhigh, fun hend => ?_⟩
  dsimp only at hend
  unfold Decimal.readsBack at h
  simp only [Decimal.compareQuarters_eq, Bool.and_eq_true, Bool.or_eq_true, beq_iff_eq,
    Nat.compare_eq_gt, Nat.compare_eq_lt, Nat.compare_eq_eq] at h
  omega

/-- A decimal that reads back to a double is rounded to it. -/
theorem ofQuotient?_of_readsBack (negative : Bool) {d : Binary64} {x : Decimal}
    (h : Decimal.readsBack d x = true) :
    ofQuotient? negative (Decimal.step x.exponent * x.digits) (10 ^ (-x.exponent).toNat) =
      some { d with negative } :=
  ofQuotient?_of_nearby negative (Decimal.pow_ten_pos _) (nearby_of_readsBack h)

end Binary64

end RecordBoard
