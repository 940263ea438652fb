import RecordBoard.Number.Decimal
import RecordBoard.Proofs.Number.Rounding

/-!
# The decimal that is chosen for a double

`Decimal.shortest` searches for up to seventeen digits and has a decimal at hand should it find
none.  It finds one: the grid of seventeen digits is finer than the doubles are apart, so one of the
two grid points next to a double lies in the interval of the reals that round to it.

Everything is stated over a common scale.  For an exponent `e` the double is counted as
`scaled d e`, one step of the grid as `step e`; both are naturals, and a decimal with the exponent
`e` compares with a double as its digits, times the step, compare with the scaled double.

## Main results

* `floorAt_lt` — the digits next to a double are no more than were asked for.
* `readsBack_below_or_above` — seventeen digits always suffice.
* `IsWritable`, `isWritable_shortest` — what there is to know of the chosen decimal in order to
  read it: it has between one and seventeen digits, and it is not above the largest double.
-/

namespace RecordBoard.Decimal

-- Powers are those of the core library, whatever else an importing module knows: hence the
-- instance, and the type of each exponent.
attribute [local instance (2000)] instPowNat

open Binary64 (unitsInOne unitsInOne_pos)

/-! ## The common scale -/

theorem pow_ten_pos (k : Nat) : 0 < 10 ^ k := Nat.pow_pos (by decide)

theorem pow_ten_le (j k : Nat) (h : j ≤ k) : 10 ^ j ≤ 10 ^ k := Nat.pow_le_pow_right (by decide) h

/-- The magnitude of a double on the scale of an exponent. -/
def scaled (d : Binary64) (e : Int) : Nat := 10 ^ (-e).toNat * d.units

/-- One step of the grid of an exponent, on the scale of the exponent. -/
def step (e : Int) : Nat := unitsInOne * 10 ^ e.toNat

theorem step_pos (e : Int) : 0 < step e := Nat.mul_pos unitsInOne_pos (pow_ten_pos _)

theorem floorAt_eq (d : Binary64) (e : Int) : floorAt d e = scaled d e / step e := rfl

/-- A common factor does not matter to a comparison. -/
theorem compare_mul_left (a b : Nat) {c : Nat} (h : 0 < c) :
    compare (c * a) (c * b) = compare a b := by
  rcases Nat.lt_trichotomy a b with hlt | rfl | hgt
  · rw [Nat.compare_eq_lt.2 hlt, Nat.compare_eq_lt.2 (Nat.mul_lt_mul_of_pos_left hlt h)]
  · rw [Nat.compare_eq_eq.2 rfl, Nat.compare_eq_eq.2 rfl]
  · rw [Nat.compare_eq_gt.2 hgt, Nat.compare_eq_gt.2 (Nat.mul_lt_mul_of_pos_left hgt h)]

/-- Scales of the same ratio compare alike. -/
theorem compare_of_ratio {p q p' q' : Nat} (h : q' * p = q * p') (hq : 0 < q) (hq' : 0 < q')
    (a b : Nat) : compare (p * a) (q * b) = compare (p' * a) (q' * b) := by
  calc compare (p * a) (q * b)
      = compare (q' * (p * a)) (q' * (q * b)) := (compare_mul_left _ _ hq').symm
    _ = compare (q * (p' * a)) (q * (q' * b)) := by
        rw [← Nat.mul_assoc q', h, Nat.mul_assoc, Nat.mul_left_comm q']
    _ = compare (p' * a) (q' * b) := compare_mul_left _ _ hq

/-- A comparison on the scale of an exponent is one on a scale that does not depend on it. -/
theorem compare_scale {e : Int} {k : Nat} (h : -(k : Int) ≤ e) (a b : Nat) :
    compare (10 ^ (-e).toNat * a) (10 ^ e.toNat * b) =
      compare (10 ^ k * a) (10 ^ (e + k).toNat * b) := by
  refine compare_of_ratio ?_ (pow_ten_pos _) (pow_ten_pos _) a b
  rw [← Nat.pow_add, ← Nat.pow_add]
  congr 1
  omega

/-! ## The interval of a double, on the scale -/

theorem compareQuarters_eq (n : Nat) (e : Int) (quarters : Nat) :
    compareQuarters ⟨n, e⟩ quarters = compare (4 * (step e * n)) (10 ^ (-e).toNat * quarters) := by
  rw [Nat.mul_left_comm]
  rfl

/-- Ten steps are one step of the next coarser grid, and so on. -/
theorem compareQuarters_coarser (e : Int) (count quarters : Nat) :
    compareQuarters ⟨1, e + count⟩ quarters = compareQuarters ⟨10 ^ count, e⟩ quarters := by
  have hratio : 10 ^ (-(e + count)).toNat * 10 ^ (e.toNat + count) =
      10 ^ (-e).toNat * 10 ^ (e + count).toNat := by
    rw [← Nat.pow_add, ← Nat.pow_add]
    congr 1
    omega
  have hmul : ∀ p, 4 * (unitsInOne * p) = p * (unitsInOne * 4) := by
    intro p
    rw [Nat.mul_left_comm, Nat.mul_left_comm p, Nat.mul_comm 4]
  rw [compareQuarters_eq, compareQuarters_eq, step, step, Nat.mul_one, Nat.mul_assoc, ← Nat.pow_add,
    hmul, hmul]
  exact (compare_of_ratio hratio (pow_ten_pos _) (pow_ten_pos _) _ _).symm

theorem readsBack_coarser (d : Binary64) (e : Int) (count : Nat) :
    readsBack d ⟨1, e + count⟩ = readsBack d ⟨10 ^ count, e⟩ := by
  unfold readsBack
  simp only [compareQuarters_coarser]

/-- What lies strictly within the interval reads back. -/
theorem readsBack_of_between {d : Binary64} {n : Nat} {e : Int}
    (hlow : 10 ^ (-e).toNat * lowerEnd d < 4 * (step e * n))
    (hhigh : 4 * (step e * n) < 10 ^ (-e).toNat * upperEnd d) : readsBack d ⟨n, e⟩ = true := by
  unfold readsBack
  simp only [compareQuarters_eq, Nat.compare_eq_gt.2 hlow, Nat.compare_eq_lt.2 hhigh]
  simp

/-- What reads back does not lie outside the interval. -/
theorem between_of_readsBack {d : Binary64} {n : Nat} {e : Int} (h : readsBack d ⟨n, e⟩ = true) :
    10 ^ (-e).toNat * lowerEnd d ≤ 4 * (step e * n) ∧
      4 * (step e * n) ≤ 10 ^ (-e).toNat * upperEnd d := by
  unfold readsBack at h
  simp only [compareQuarters_eq, Bool.and_eq_true, Bool.or_eq_true, beq_iff_eq,
    Nat.compare_eq_gt, Nat.compare_eq_lt, Nat.compare_eq_eq] at h
  omega

/-- A double other than zero has a magnitude of one gap at least. -/
theorem two_pow_shift_le_units {d : Binary64} (h : d.isZero = false) : 2 ^ d.shift ≤ d.units := by
  simp only [Binary64.isZero, decide_eq_false_iff_not] at h
  exact Nat.le_mul_of_pos_left _ (Nat.pos_of_ne_zero h)

/-- A double other than zero has a positive lower end. -/
theorem lowerEnd_pos {d : Binary64} (h : d.isZero = false) : 0 < lowerEnd d := by
  have hgap : 0 < 2 ^ d.shift := Nat.two_pow_pos _
  have hunits := two_pow_shift_le_units h
  unfold lowerEnd
  split <;> omega

/-! ## The exponent of the first digit -/

/-- A factor that makes every double other than zero greater than one. -/
def enlarging : Nat := 10 ^ (400 : Nat)

theorem enlarging_pos : 0 < enlarging := by
  unfold enlarging
  exact pow_ten_pos 400

theorem two_pow_le_pow_ten {j k : Nat} (h : j ≤ 3 * k) : 2 ^ j ≤ 10 ^ k := by
  refine Nat.le_trans (Nat.pow_le_pow_right (by decide) h) ?_
  rw [Nat.pow_mul]
  exact Nat.pow_le_pow_left (by decide) k

theorem unitsInOne_le_enlarging : unitsInOne ≤ enlarging := by
  have hle : 1074 ≤ 3 * 400 := by decide
  unfold unitsInOne enlarging
  generalize (1074 : Nat) = j, (400 : Nat) = k at hle ⊢
  exact two_pow_le_pow_ten hle

theorem pow_ten_add_enlarging (k : Nat) : 10 ^ (k + 400) = 10 ^ k * enlarging := by
  rw [enlarging, Nat.pow_add]

/-- The magnitude of a double, enlarged and without its fraction. -/
def enlarged (d : Binary64) : Nat := enlarging * d.units / unitsInOne

/-- The number of digits in front of the point of an enlarged double. -/
def digitsBefore (d : Binary64) : Nat := (Nat.toDigits 10 (enlarged d)).length

theorem leadingExponent_eq (d : Binary64) : leadingExponent d = (digitsBefore d : Int) - 401 := by
  unfold digitsBefore enlarged enlarging
  rfl

theorem digitsBefore_pos (d : Binary64) : 0 < digitsBefore d := Nat.length_toDigits_pos

theorem units_lt_pow_digitsBefore (d : Binary64) :
    enlarging * d.units < unitsInOne * 10 ^ digitsBefore d := by
  have hlt : enlarged d < 10 ^ digitsBefore d :=
    (Nat.length_toDigits_le_iff (by decide) (digitsBefore_pos d)).1 (Nat.le_refl _)
  rw [Nat.mul_comm unitsInOne]
  exact (Nat.div_lt_iff_lt_mul unitsInOne_pos).1 hlt

theorem pow_digitsBefore_le_units {d : Binary64} (h : d.isZero = false) :
    unitsInOne * 10 ^ (digitsBefore d - 1) ≤ enlarging * d.units := by
  have hunits : 1 ≤ d.units := Nat.le_trans (Nat.two_pow_pos _) (two_pow_shift_le_units h)
  have hpos : 1 ≤ enlarged d := by
    refine (Nat.le_div_iff_mul_le unitsInOne_pos).2 ?_
    rw [Nat.mul_comm]
    exact Nat.mul_le_mul unitsInOne_le_enlarging hunits
  have hle : 10 ^ (digitsBefore d - 1) ≤ enlarged d := by
    rcases Nat.eq_zero_or_pos (digitsBefore d - 1) with hzero | hlt
    · rw [hzero, Nat.pow_zero]
      exact hpos
    · apply Nat.le_of_not_lt
      intro hlt'
      have hlength := (Nat.length_toDigits_le_iff (by decide) hlt).2 hlt'
      unfold digitsBefore at hlength hlt
      omega
  exact Nat.le_trans (Nat.mul_le_mul_left _ hle) (Nat.mul_div_le _ _)

/-- The digits next to a double are no more than were asked for. -/
theorem floorAt_lt (d : Binary64) (count : Nat) :
    floorAt d (leadingExponent d + 1 - count) < 10 ^ count := by
  have hlead := leadingExponent_eq d
  have hscale : -((count + 400 : Nat) : Int) ≤ leadingExponent d + 1 - count := by omega
  have hplaces : (leadingExponent d + 1 - count + (count + 400 : Nat)).toNat = digitsBefore d := by
    omega
  rw [floorAt_eq, Nat.div_lt_iff_lt_mul (step_pos _), step, scaled, Nat.mul_comm (10 ^ count),
    Nat.mul_comm unitsInOne, Nat.mul_assoc, ← Nat.compare_eq_lt, compare_scale hscale, hplaces,
    Nat.compare_eq_lt, pow_ten_add_enlarging]
  calc 10 ^ count * enlarging * d.units
      = 10 ^ count * (enlarging * d.units) := Nat.mul_assoc ..
    _ < 10 ^ count * (unitsInOne * 10 ^ digitsBefore d) :=
        Nat.mul_lt_mul_of_pos_left (units_lt_pow_digitsBefore d) (pow_ten_pos _)
    _ = 10 ^ digitsBefore d * (unitsInOne * 10 ^ count) := by
        rw [Nat.mul_comm (10 ^ count), Nat.mul_comm unitsInOne, Nat.mul_assoc]

/-! ## Seventeen digits -/

/-- The distance to the next larger double, on the scale of an exponent. -/
def gap (d : Binary64) (e : Int) : Nat := 10 ^ (-e).toNat * 2 ^ d.shift

private theorem step_lt_gap_aux {a b m g u first large : Nat} (hpos : 0 < large * g)
    (hunits : u * first ≤ large * (m * g)) (hbound : a * m < b * 10 ^ (16 : Nat)) :
    first * 10 * (u * a) < 10 ^ (17 : Nat) * large * (g * b) := by
  calc first * 10 * (u * a)
      = a * 10 * (u * first) := by grind
    _ ≤ a * 10 * (large * (m * g)) := Nat.mul_le_mul_left _ hunits
    _ = a * m * (10 * (large * g)) := by grind
    _ < b * 10 ^ (16 : Nat) * (10 * (large * g)) :=
        Nat.mul_lt_mul_of_pos_right hbound (by omega)
    _ = 10 ^ (17 : Nat) * large * (g * b) := by grind

/-- One step of the grid of seventeen digits against the gap between doubles. -/
theorem step_lt_gap {d : Binary64} (h : d.isZero = false) {a b : Nat}
    (hbound : a * d.mantissa < b * 10 ^ (16 : Nat)) :
    a * step (leadingExponent d + 1 - 17) < b * gap d (leadingExponent d + 1 - 17) := by
  have hlead := leadingExponent_eq d
  have hdigits := digitsBefore_pos d
  have hscale : -((17 + 400 : Nat) : Int) ≤ leadingExponent d + 1 - 17 := by omega
  have hplaces : (leadingExponent d + 1 - 17 + (17 + 400 : Nat)).toNat =
      digitsBefore d - 1 + 1 := by
    omega
  have hcompare := compare_scale hscale (2 ^ d.shift * b) (unitsInOne * a)
  rw [hplaces, pow_ten_add_enlarging 17, Nat.pow_succ (m := digitsBefore d - 1)] at hcompare
  have hlt := step_lt_gap_aux (Nat.mul_pos enlarging_pos (Nat.two_pow_pos d.shift))
    (pow_digitsBefore_le_units h) hbound
  have hgt := Nat.compare_eq_gt.1 (hcompare.trans (Nat.compare_eq_gt.2 hlt))
  rwa [step, gap, Nat.mul_comm unitsInOne, Nat.mul_left_comm, Nat.mul_comm a, Nat.mul_left_comm b,
    Nat.mul_comm b]

/-- The neighbours of a double on the grid of an exponent lie on both sides of it. -/
theorem step_mul_floorAt_le (d : Binary64) (e : Int) : step e * floorAt d e ≤ scaled d e :=
  Nat.mul_div_le _ _

theorem scaled_lt (d : Binary64) (e : Int) : scaled d e < step e * (floorAt d e + 1) := by
  rw [Nat.mul_comm]
  exact (Nat.div_lt_iff_lt_mul (step_pos e)).1 (Nat.lt_succ_self _)

theorem mul_upperEnd (d : Binary64) (e : Int) :
    10 ^ (-e).toNat * upperEnd d = 4 * scaled d e + 2 * gap d e := by
  rw [upperEnd, scaled, gap, Nat.mul_add, Nat.mul_left_comm, Nat.mul_left_comm _ 2]

/-- The interval reaches down by half a gap, or by a quarter of it under the least full mantissa. -/
theorem mul_lowerEnd (d : Binary64) (e : Int) :
    10 ^ (-e).toNat * lowerEnd d =
      4 * scaled d e - if d.mantissa = 2 ^ (52 : Nat) ∧ d.shift ≠ 0 then gap d e
        else 2 * gap d e := by
  unfold lowerEnd scaled gap
  split
  · rw [Nat.mul_sub, Nat.mul_left_comm]
  · rw [Nat.mul_sub, Nat.mul_left_comm, Nat.mul_left_comm _ 2]

/-- With seventeen digits the next smaller or the next larger decimal reads back. -/
theorem readsBack_below_or_above {d : Binary64} (h : d.isZero = false) :
    readsBack d ⟨floorAt d (leadingExponent d + 1 - 17), leadingExponent d + 1 - 17⟩ = true ∨
      readsBack d ⟨floorAt d (leadingExponent d + 1 - 17) + 1, leadingExponent d + 1 - 17⟩ =
        true := by
  have hm := d.mantissa_lt
  have hbelow := step_mul_floorAt_le d (leadingExponent d + 1 - 17)
  have habove := scaled_lt d (leadingExponent d + 1 - 17)
  have hstep : 1 * step (leadingExponent d + 1 - 17) < 1 * gap d (leadingExponent d + 1 - 17) :=
    step_lt_gap h (by omega)
  have hnarrow : d.mantissa = 2 ^ (52 : Nat) →
      4 * step (leadingExponent d + 1 - 17) < 3 * gap d (leadingExponent d + 1 - 17) :=
    fun heq => step_lt_gap h (by rw [heq]; decide)
  have hgap : gap d (leadingExponent d + 1 - 17) ≤ scaled d (leadingExponent d + 1 - 17) :=
    Nat.mul_le_mul_left _ (two_pow_shift_le_units h)
  generalize leadingExponent d + 1 - 17 = e at *
  have hlow := mul_lowerEnd d e
  have hhigh := mul_upperEnd d e
  have hsucc : step e * (floorAt d e + 1) = step e * floorAt d e + step e := Nat.mul_succ ..
  by_cases hnear : 10 ^ (-e).toNat * lowerEnd d < 4 * (step e * floorAt d e)
  · exact .inl (readsBack_of_between hnear (by omega))
  · refine .inr (readsBack_of_between (by split at hlow <;> omega) ?_)
    split at hlow
    · have := hnarrow (And.left ‹_›)
      omega
    · omega

/-! ## The decimal that is chosen -/

/-- The next decimal below a double, with a given number of digits. -/
def below (d : Binary64) (count : Nat) : Decimal :=
  ⟨floorAt d (leadingExponent d + 1 - count), leadingExponent d + 1 - count⟩

/-- The next decimal above a double, with a given number of digits. -/
def above (d : Binary64) (count : Nat) : Decimal :=
  if floorAt d (leadingExponent d + 1 - count) + 1 = 10 ^ count then
    ⟨1, leadingExponent d + 1 - count + count⟩
  else ⟨floorAt d (leadingExponent d + 1 - count) + 1, leadingExponent d + 1 - count⟩

theorem readsBack_above (d : Binary64) (count : Nat) :
    readsBack d (above d count) =
      readsBack d
        ⟨floorAt d (leadingExponent d + 1 - count) + 1, leadingExponent d + 1 - count⟩ := by
  unfold above
  split
  next hnines => rw [readsBack_coarser, hnines]
  next => rfl

theorem withDigits?_eq (d : Binary64) (count : Nat) :
    withDigits? d (leadingExponent d) count =
      nearest? (readsBack d (below d count)) (readsBack d (above d count))
        (compareMiddle d (floorAt d (leadingExponent d + 1 - count))
          (leadingExponent d + 1 - count))
        (floorAt d (leadingExponent d + 1 - count) % 2 == 0) (below d count) (above d count) := rfl

/-- One of the neighbours is chosen: the lower one if it reads back and lies nearer. -/
theorem nearest?_eq_some {low high : Bool} {middle : Ordering} {even : Bool}
    {below above x : Decimal} (h : nearest? low high middle even below above = some x) :
    x = below ∧ low = true ∨ x = above ∧ high = true ∧ ¬ (low = true ∧ middle = .lt) := by
  unfold nearest? at h
  split at h
  · split at h
    · simp_all
    · simp_all
    · split at h <;> simp_all
  all_goals simp_all

theorem exists_nearest? {low high : Bool} (h : low = true ∨ high = true) (middle : Ordering)
    (even : Bool) (below above : Decimal) :
    ∃ x, nearest? low high middle even below above = some x := by
  unfold nearest?
  split
  · split <;> exact ⟨_, rfl⟩
  · exact ⟨_, rfl⟩
  · exact ⟨_, rfl⟩
  · exact absurd h (by decide)

/-- The chosen decimal is one that the search found, with seventeen digits at most. -/
theorem exists_shortest {d : Binary64} (h : d.isZero = false) :
    ∃ count ≤ 17, withDigits? d (leadingExponent d) count = some (shortest d) := by
  obtain ⟨x, hx⟩ : ∃ x, withDigits? d (leadingExponent d) 17 = some x := by
    rw [withDigits?_eq]
    apply exists_nearest?
    rw [readsBack_above]
    exact readsBack_below_or_above h
  unfold shortest
  dsimp only
  cases hfound : ((List.range 17).map (· + 1)).findSome? (withDigits? d (leadingExponent d)) with
  | none =>
    have hnone := List.findSome?_eq_none_iff.1 hfound 17 (by decide)
    rw [hx] at hnone
    cases hnone
  | some y =>
    obtain ⟨count, hmem, hy⟩ := List.exists_of_findSome?_eq_some hfound
    obtain ⟨n, hn, rfl⟩ := List.mem_map.1 hmem
    exact ⟨n + 1, List.mem_range.1 hn, hy⟩

/-! ## What is chosen can be read -/

theorem digits_pos_of_readsBack {d : Binary64} {x : Decimal} (h : d.isZero = false)
    (hx : readsBack d x = true) : 0 < x.digits := by
  have hlow := (between_of_readsBack hx).1
  have hpos : 0 < 10 ^ (-x.exponent).toNat * lowerEnd d :=
    Nat.mul_pos (pow_ten_pos _) (lowerEnd_pos h)
  apply Nat.pos_of_ne_zero
  intro hzero
  rw [hzero, Nat.mul_zero] at hlow
  omega

theorem digits_lt_of_neighbour {d : Binary64} {count : Nat} (hcount : count ≤ 17) {x : Decimal}
    (hx : x = below d count ∨ x = above d count) : x.digits < 10 ^ (17 : Nat) := by
  have hfloor := floorAt_lt d count
  have hpow : 10 ^ count ≤ 10 ^ (17 : Nat) := pow_ten_le _ _ hcount
  rcases hx with rfl | rfl
  · exact Nat.lt_of_lt_of_le hfloor hpow
  · unfold above
    split
    · show 1 < 10 ^ (17 : Nat)
      decide
    · refine Nat.lt_of_lt_of_le ?_ hpow
      show floorAt d (leadingExponent d + 1 - count) + 1 < 10 ^ count
      omega

theorem exponent_ge_of_neighbour {d : Binary64} {count : Nat} (hcount : count ≤ 17) {x : Decimal}
    (hx : x = below d count ∨ x = above d count) : -416 ≤ x.exponent := by
  have hlead := leadingExponent_eq d
  have hdigits := digitsBefore_pos d
  rcases hx with rfl | rfl
  · show -416 ≤ leadingExponent d + 1 - count
    omega
  · unfold above
    split
    · show -416 ≤ leadingExponent d + 1 - count + count
      omega
    · show -416 ≤ leadingExponent d + 1 - count
      omega

/-- A whole number that reads back is not beyond the interval. -/
theorem mul_step_le_upperEnd {d : Binary64} {x : Decimal} (he : 0 ≤ x.exponent)
    (hx : readsBack d x = true) : 4 * (step x.exponent * x.digits) ≤ upperEnd d := by
  have hhigh := (between_of_readsBack hx).2
  rwa [show (-x.exponent).toNat = 0 by omega, Nat.pow_zero, Nat.one_mul] at hhigh

/-- A double with a smaller mantissa and fewer doublings has a smaller upper end. -/
theorem upperEnd_le (d : Binary64) (m s : Nat) (hm : d.mantissa ≤ m) (hs : d.shift ≤ s) :
    upperEnd d ≤ (4 * m + 2) * 2 ^ s := by
  have heq : upperEnd d = (4 * d.mantissa + 2) * 2 ^ d.shift := by
    rw [upperEnd, Binary64.units, Nat.add_mul, Nat.mul_assoc]
  rw [heq]
  exact Nat.mul_le_mul (by omega) (Nat.pow_le_pow_right (by decide) hs)

/-- The largest double, of either sign. -/
def largest (negative : Bool) : Binary64 where
  negative
  mantissa := 2 ^ (53 : Nat) - 1
  shift := 2045
  mantissa_lt := by decide
  shift_le := by decide
  normalised := .inr (by decide)

/--
The decimals next to the largest double: where the intervals of the largest double and of its
neighbours end, counted in seventeen digits, and between which powers of ten the largest double
lies.
-/
theorem near_largest :
    (4 * 2 ^ (53 : Nat) + 2) * 2 ^ (2044 : Nat) < 4 * (step 292 * 17976931348623158) ∧
      (4 * (2 ^ (53 : Nat) - 2) + 2) * 2 ^ (2045 : Nat) < 4 * (step 292 * 17976931348623158) ∧
      (4 * (2 ^ (53 : Nat) - 1) + 2) * 2 ^ (2045 : Nat) < 4 * (step 292 * 17976931348623159) ∧
      10 ^ (17 : Nat) * 10 ^ (291 : Nat) ≤ 17976931348623157 * 10 ^ (292 : Nat) ∧
      17976931348623157 * 10 ^ (292 : Nat) < 10 ^ (309 : Nat) := by
  decide +kernel

/-- No other double has seventeen digits of that size in its interval. -/
theorem eq_largest {d : Binary64} (h : 4 * (step 292 * 17976931348623158) ≤ upperEnd d) :
    d = largest d.negative := by
  have hshift : d.shift = 2045 := by
    refine Nat.le_antisymm d.shift_le (Nat.le_of_not_lt fun hlt => ?_)
    have hle :=
      upperEnd_le d (2 ^ (53 : Nat)) 2044 (Nat.le_of_lt d.mantissa_lt) (Nat.le_of_lt_succ hlt)
    exact absurd (Nat.le_trans h hle) (Nat.not_le_of_lt near_largest.1)
  have hmantissa : d.mantissa = 2 ^ (53 : Nat) - 1 := by
    refine Nat.le_antisymm (Nat.le_of_lt_succ d.mantissa_lt) (Nat.le_of_not_lt fun hlt => ?_)
    have hle := upperEnd_le d (2 ^ (53 : Nat) - 2) 2045 (Nat.le_of_lt_succ hlt) d.shift_le
    exact absurd (Nat.le_trans h hle) (Nat.not_le_of_lt near_largest.2.1)
  cases d
  cases hshift
  cases hmantissa
  rfl

/-- The next smaller decimal reads back to the largest double, and it is the nearer one. -/
theorem below_largest (negative : Bool) :
    floorAt (largest negative) 292 = 17976931348623157 ∧
      readsBack (largest negative) ⟨17976931348623157, 292⟩ = true ∧
      compareMiddle (largest negative) 17976931348623157 292 = .lt := by
  cases negative <;> decide +kernel

/-- A decimal that a reader can take: of seventeen digits, and not above the largest double. -/
structure IsWritable (x : Decimal) : Prop where
  /-- It is not zero. -/
  pos : 0 < x.digits
  /-- It has at most seventeen digits. -/
  lt : x.digits < 10 ^ (17 : Nat)
  /-- Its exponent is not below that of the least double with seventeen digits. -/
  ge : -416 ≤ x.exponent
  /-- A whole number is at most the largest double, written with seventeen digits. -/
  le : 0 ≤ x.exponent →
    x.digits * 10 ^ x.exponent.toNat ≤ 17976931348623157 * 10 ^ (292 : Nat)

theorem step_add {e : Int} (he : 0 ≤ e) (k : Nat) : step (e + k) = step e * 10 ^ k := by
  rw [step, step, show (e + k).toNat = e.toNat + k by omega, Nat.pow_add, Nat.mul_assoc]

/-- Counted in `10 ^ 292`, what reads back is at most one more than the digits of the largest
double. -/
theorem counted_le {d : Binary64} {n k : Nat} (h : 4 * (step (292 + k) * n) ≤ upperEnd d) :
    10 ^ k * n ≤ 17976931348623158 := by
  have hm := d.mantissa_lt
  have hle := upperEnd_le d (2 ^ (53 : Nat) - 1) 2045 (by omega) d.shift_le
  have hbound := near_largest.2.2.1
  rw [step_add (by decide), Nat.mul_assoc] at h
  apply Nat.le_of_not_lt
  intro hlt
  have hmul := Nat.mul_le_mul_left (step 292) hlt
  omega

/-- A chosen decimal is a neighbour that reads back. -/
theorem readsBack_of_chosen {d : Binary64} {count : Nat} {x : Decimal}
    (h : withDigits? d (leadingExponent d) count = some x) :
    readsBack d x = true ∧ (x = below d count ∨ x = above d count) := by
  rw [withDigits?_eq] at h
  rcases nearest?_eq_some h with ⟨rfl, hlow⟩ | ⟨rfl, hhigh, -⟩
  · exact ⟨hlow, .inl rfl⟩
  · exact ⟨hhigh, .inr rfl⟩

/-- The one decimal above the largest double that reads back to it is not chosen. -/
theorem chosen_ne {d : Binary64} {count : Nat} :
    withDigits? d (leadingExponent d) count ≠ some ⟨17976931348623158, 292⟩ := by
  intro h
  have hbound := mul_step_le_upperEnd (by decide) (readsBack_of_chosen h).1
  dsimp only at hbound
  have heq := eq_largest hbound
  obtain ⟨hfloor, hlow, hmiddle⟩ := below_largest d.negative
  rw [← heq] at hfloor hlow hmiddle
  rw [withDigits?_eq] at h
  rcases nearest?_eq_some h with ⟨hbelow, -⟩ | ⟨habove, -, hnot⟩
  · obtain ⟨hdigits, hexponent⟩ := Decimal.mk.inj hbelow
    rw [← hexponent, hfloor] at hdigits
    exact absurd hdigits (by decide)
  · unfold above at habove
    split at habove
    · exact absurd (Decimal.mk.inj habove).1 (by decide)
    · have hexponent := (Decimal.mk.inj habove).2
      rw [below, ← hexponent, hfloor] at hnot
      exact hnot ⟨hlow, hmiddle⟩

/-- The decimal that is chosen for a double can be read. -/
theorem isWritable_shortest {d : Binary64} (h : d.isZero = false) : IsWritable (shortest d) := by
  obtain ⟨count, hcount, hchosen⟩ := exists_shortest h
  obtain ⟨hread, hneighbour⟩ := readsBack_of_chosen hchosen
  have hlt := digits_lt_of_neighbour hcount hneighbour
  refine ⟨digits_pos_of_readsBack h hread, hlt, exponent_ge_of_neighbour hcount hneighbour, ?_⟩
  intro he
  have hbound := mul_step_le_upperEnd he hread
  cases hx : shortest d with | mk n e =>
  rw [hx] at hchosen hlt he hbound
  dsimp only at hlt he hbound ⊢
  rcases Int.lt_or_le e 292 with hsmall | hlarge
  · have hpow := pow_ten_le e.toNat 291 (by omega)
    exact Nat.le_trans (Nat.mul_le_mul (Nat.le_of_lt hlt) hpow) near_largest.2.2.2.1
  · obtain ⟨k, rfl⟩ : ∃ k : Nat, e = 292 + k := ⟨(e - 292).toNat, by omega⟩
    have hcounted := counted_le hbound
    have hne : 10 ^ k * n ≠ 17976931348623158 := by
      intro heq
      cases k with
      | zero =>
        rw [Nat.pow_zero, Nat.one_mul] at heq
        rw [heq] at hchosen
        exact chosen_ne hchosen
      | succ k =>
        rw [Nat.pow_succ, Nat.mul_comm _ 10, Nat.mul_assoc] at heq
        omega
    rw [show (292 + (k : Int)).toNat = k +
      292 by omega, Nat.pow_add, ← Nat.mul_assoc, Nat.mul_comm n]
    generalize 10 ^ (292 : Nat) = scale
    exact Nat.mul_le_mul_right scale (by omega)

end RecordBoard.Decimal
