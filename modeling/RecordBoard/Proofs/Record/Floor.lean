import RecordBoard.Proofs.Number.Value
import RecordBoard.Proofs.Record.Stamp

/-!
# The floor of a stamp

A write is stamped with the later of two moments: the clock, and the least whole second that is not
before the last write of the record that it replaces.  That last moment may come from another
writer, and may be a fraction, or a number of any size.

It is looked at as a double.  A double is one already and is rounded up exactly, so a fraction never
makes a moment go back.  An integer of more than fifty-three bits may lie between two doubles; it is
then taken for the nearest one, and the stamp may fall below it.  Of these only the very last word
is safe: the double next to it is beyond all words, and counts as the last of them.

## Main definitions

* `Number.IsKept` — the numbers that are not changed on the way.

## Main results

* `toNat_floor` — the floor is the double rounded up, or the last word.
* `floor_eq_iff` — the floor is the number rounded up if and only if the number is kept.
* `stamp_is_maximum_where_kept` — when a stamp is the maximum that it is meant to be.
* `stamp_below_last_moment` — a stamp that goes back.
-/

namespace RecordBoard

-- Powers are those of the core library, whatever else an importing module knows.
attribute [local instance (2000)] instPowNat

open Json (Value Number)

namespace Json.Number

/-- Nothing is lost of the number where it is taken for a double and then for a word. -/
def IsKept : Number → Prop
  | .integer i _ => Binary64.IsRepresentable i.toNat ∨ i.toNat = 2 ^ (64 : Nat) - 1
  | .double _ => True

instance : DecidablePred IsKept
  | .integer _ _ => inferInstanceAs (Decidable (_ ∨ _))
  | .double _ => .isTrue trivial

/-- A number that is not below zero is taken for a double, which is not below zero either. -/
theorem exists_toDouble {n : Number} (h : 0 ≤ n.value) :
    ∃ d, n.toDouble? = some d ∧ d.isNonNegative = true := by
  cases n with
  | double d => exact ⟨d, rfl, Binary64.isNonNegative_of_value h⟩
  | integer i fits =>
    obtain ⟨k, rfl⟩ := Int.eq_ofNat_of_zero_le (Int.cast_nonneg_iff.1 h)
    obtain ⟨d, hd, -⟩ := Numeral.exists_ofInt k (by exact_mod_cast fits.2)
    exact ⟨d, hd, Binary64.isNonNegative_of_negative (Binary64.negative_ofInt hd)⟩

end Json.Number

/-- What a plain numeral is read as is kept. -/
theorem Json.Numeral.isKept_of_isPlain {numeral : Numeral} (hplain : numeral.IsPlain) {n : Number}
    (hn : numeral.number? = some n) : n.IsKept := by
  unfold number? at hn
  split at hn
  · cases hn
    have hint : numeral.toInt.toNat = numeral.significand := by
      rw [toInt, hplain.positive, if_neg Bool.false_ne_true, Int.toNat_natCast]
    refine .inl ?_
    rw [hint]
    exact Binary64.isRepresentable_of_le (Nat.le_of_lt hplain.digits)
  · obtain ⟨d, -, rfl⟩ := Option.map_eq_some_iff.1 hn
    trivial

namespace Record

theorem updatedAt_of_number {p : Record} {n : Number} {d : Binary64}
    (h : p.get? "updated_at" = some (.number n)) (hd : n.toDouble? = some d)
    (hsign : d.isNonNegative = true) : p.updatedAt? = some d := by
  have hdouble : (Value.number n).asDouble? = some d := hd
  rw [updatedAt?, h, Option.bind_some, moment?, hdouble, Option.filter_some, if_pos hsign]

/-- The floor is the last moment rounded up, or the last word if there is none for it. -/
theorem toNat_floor {p : Record} {d : Binary64} (h : p.updatedAt? = some d) :
    (floor (some p)).toNat = min d.ceil (2 ^ (64 : Nat) - 1) := by
  rw [floor, Option.bind_some, h]
  show (UInt64.ofNatClamp d.ceil).toNat = _
  rcases Nat.lt_or_ge d.ceil UInt64.size with hlt | hge
  · rw [UInt64.toNat_ofNatClamp_of_lt hlt, Nat.min_eq_left (Nat.le_sub_one_of_lt hlt)]
  · rw [UInt64.toNat_ofNatClamp_of_le hge,
      Nat.min_eq_right (Nat.le_trans (Nat.sub_le _ 1) hge)]

/-- The double next to the last word is the first number beyond all words. -/
theorem ceil_of_last_word {d : Binary64}
    (h : Binary64.ofInt? ((2 ^ (64 : Nat) - 1 : Nat) : Int) = some d) :
    d.ceil = 2 ^ (64 : Nat) := by
  have hceil : (Binary64.ofInt? ((2 ^ (64 : Nat) - 1 : Nat) : Int)).map Binary64.ceil =
      some (2 ^ (64 : Nat)) := by
    decide +kernel
  rw [h] at hceil
  exact Option.some.inj hceil

/-- The floor that an integer makes is that integer if and only if it is kept. -/
theorem floor_eq_iff_of_integer {k : Nat} {d : Binary64} (hk : k < 2 ^ (64 : Nat))
    (hd : Binary64.ofInt? k = some d) :
    min d.ceil (2 ^ (64 : Nat) - 1) = k ↔ Binary64.IsRepresentable k ∨ k = 2 ^ (64 : Nat) - 1 := by
  obtain ⟨whole, hunits⟩ := Binary64.exists_units_of_ofInt hd
  have hceil := Binary64.ceil_of_units hunits
  constructor
  · intro h
    rcases Nat.lt_or_ge whole (2 ^ (64 : Nat)) with hlt | hge
    · have heq : whole = k := by
        rw [hceil, Nat.min_eq_left (Nat.le_sub_one_of_lt hlt)] at h
        exact h
      exact .inl ((Binary64.isRepresentable_iff hd).2 (heq ▸ hunits))
    · rw [hceil, Nat.min_eq_right (Nat.le_trans (Nat.sub_le _ 1) hge)] at h
      exact .inr h.symm
  · rintro (hrepresentable | rfl)
    · rw [Binary64.ceil_of_units (Binary64.units_ofInt hrepresentable hd),
        Nat.min_eq_left (Nat.le_sub_one_of_lt hk)]
    · rw [ceil_of_last_word hd]
      decide

/-- The floor is the last moment rounded up if and only if that moment is kept. -/
theorem floor_eq_iff {p : Record} {n : Number} (h : p.get? "updated_at" = some (.number n))
    (hlow : 0 ≤ n.value) (hhigh : n.value < 2 ^ (64 : Nat)) :
    (floor (some p)).toNat = ⌈n.value⌉₊ ↔ n.IsKept := by
  obtain ⟨d, hd, hsign⟩ := n.exists_toDouble hlow
  rw [toNat_floor (updatedAt_of_number h hd hsign)]
  cases n with
  | double d' =>
    cases hd
    have hlt : d.ceil < 2 ^ (64 : Nat) :=
      Binary64.ceil_lt_of_units_lt ((Binary64.value_lt_iff hsign).1 (by exact_mod_cast hhigh))
    rw [Nat.min_eq_left (Nat.le_sub_one_of_lt hlt), Number.value, ← Binary64.ceil_eq hsign]
    exact iff_of_true rfl trivial
  | integer i fits =>
    obtain ⟨k, rfl⟩ := Int.eq_ofNat_of_zero_le (Int.cast_nonneg_iff.1 hlow)
    rw [Number.value, Nat.ceil_intCast]
    exact floor_eq_iff_of_integer (by exact_mod_cast fits.2) hd

theorem toNat_stampFor (previous : Option Record) (now : UInt64) :
    (stampFor previous now).toNat = max now.toNat (floor previous).toNat :=
  UInt64.toNat_max now (floor previous)

/--
**A stamp is the maximum that it is meant to be wherever the last moment is kept.**  Let the last
write of a record be a number from zero up to the words, of whatever kind.  At every reading of the
clock the stamp of the next write is the greater of the reading and that number rounded up if and
only if the number is kept: a fraction, an integer that is a double, or the last word.  The record
that is then written tells this stamp, and it is not below the last moment.

A numeral without a sign, whose digits fit a mantissa and count in a small power of ten, is read as
a number that is kept, and rounding up gives what it would give of the numeral itself.
-/
theorem stamp_is_maximum_where_kept {p : Record} {n : Number}
    (h : p.get? "updated_at" = some (.number n)) (hlow : 0 ≤ n.value)
    (hhigh : n.value < 2 ^ (64 : Nat)) :
    ((∀ now, (stampFor (some p) now).toNat = max now.toNat ⌈n.value⌉₊) ↔ n.IsKept) ∧
    (n.IsKept → ∀ key now r, ∃ stamped : UInt64,
      (stamp key (some p) now r).get? "updated_at" = some (.ofWord stamped) ∧
      stamped.toNat = max now.toNat ⌈n.value⌉₊ ∧ n.value ≤ stamped.toNat) ∧
    ∀ text rest numeral, Json.Numeral.ofBytes text = .ok (numeral, rest) → numeral.IsPlain →
      numeral.number? = some n → n.IsKept ∧ ⌈n.value⌉₊ = ⌈numeral.value⌉₊ := by
  have hfloor := floor_eq_iff h hlow hhigh
  refine ⟨⟨fun hmax => hfloor.1 ?_, fun hkept now => ?_⟩, fun hkept key now r => ?_,
    fun text rest numeral hread hplain hnumber =>
      ⟨?_, Json.Numeral.ceil_of_isPlain hread hplain hnumber⟩⟩
  · -- the clock of the epoch leaves the floor as it is
    have hzero := hmax 0
    rw [toNat_stampFor] at hzero
    exact (Nat.zero_max _).symm.trans (hzero.trans (Nat.zero_max _))
  · rw [toNat_stampFor, hfloor.2 hkept]
  · have hstamp : (stampFor (some p) now).toNat = max now.toNat ⌈n.value⌉₊ := by
      rw [toNat_stampFor, hfloor.2 hkept]
    refine ⟨stampFor (some p) now, get?_stamp_updated key (some p) now r, hstamp, ?_⟩
    rw [hstamp]
    exact Nat.ceil_le.1 (Nat.le_max_right _ _)
  · exact Json.Numeral.isKept_of_isPlain hplain hnumber

/-! ## Two last moments -/

/-- The record in a text, if its last moment is a number, with that number. -/
def lastWrite? (text : String) : Option (Record × Number) :=
  (decode (Utf8.encode text)).toOption.bind fun p =>
    match p.get? "updated_at" with
    | some (.number n) => some (p, n)
    | _ => none

theorem lastWrite?_eq_some {text : String} {p : Record} {n : Number}
    (h : lastWrite? text = some (p, n)) :
    decode (Utf8.encode text) = .ok p ∧ p.get? "updated_at" = some (.number n) := by
  obtain ⟨p', hdecoded, hmoment⟩ := Option.bind_eq_some_iff.1 h
  split at hmoment
  next n' hn =>
    obtain ⟨rfl, rfl⟩ := Prod.mk.inj (Option.some.inj hmoment)
    exact ⟨decode_of_toOption hdecoded, hn⟩
  next => cases hmoment

/-- A fraction of a second is rounded up, and a stamp is not before it. -/
theorem fraction_is_rounded_up :
    ∃ (p : Record) (n : Number), decode (Utf8.encode "\x7b\"updated_at\":4000.4\x7d") = .ok p ∧
      p.get? "updated_at" = some (.number n) ∧ 0 ≤ n.value ∧ n.value < 2 ^ (64 : Nat) ∧ n.IsKept ∧
      (∀ now, (stampFor (some p) now).toNat = max now.toNat ⌈n.value⌉₊) ∧
      (stampFor (some p) 4000).toNat = 4001 := by
  have hwritten : (lastWrite? "\x7b\"updated_at\":4000.4\x7d").map (fun (_, n) =>
      (decide (0 ≤ n.value), decide (n.value < 2 ^ (64 : Nat)), decide n.IsKept, ⌈n.value⌉₊)) =
        some (true, true, true, 4001) := by
    decide +kernel
  obtain ⟨⟨p, n⟩, hwrite, hfacts⟩ := Option.map_eq_some_iff.1 hwritten
  simp only [Prod.mk.injEq, decide_eq_true_iff] at hfacts
  obtain ⟨hlow, hhigh, hkept, hceil⟩ := hfacts
  obtain ⟨hdecoded, hmoment⟩ := lastWrite?_eq_some hwrite
  have hmax := (stamp_is_maximum_where_kept hmoment hlow hhigh).1.2 hkept
  refine ⟨p, n, hdecoded, hmoment, hlow, hhigh, hkept, hmax, ?_⟩
  rw [hmax, hceil]
  rfl

/-- The least integer that is not a double is taken for the one below it, and the stamp goes
back. -/
theorem stamp_below_last_moment :
    ∃ (p : Record) (n : Number), decode (Utf8.encode "\x7b\"updated_at\":9007199254740993\x7d") =
      .ok p ∧
      p.get? "updated_at" = some (.number n) ∧ n.value = 9007199254740993 ∧
      (stampFor (some p) 0).toNat = 9007199254740992 ∧
      (stampFor (some p) 0).toNat ≠ max (0 : UInt64).toNat ⌈n.value⌉₊ ∧
      ((stampFor (some p) 0).toNat : ℚ) < n.value := by
  have hwritten : (lastWrite? "\x7b\"updated_at\":9007199254740993\x7d").map (fun (p, n) =>
      (decide (n.value = 9007199254740993), (stampFor (some p) 0).toNat, ⌈n.value⌉₊)) =
        some (true, 9007199254740992, 9007199254740993) := by
    decide +kernel
  obtain ⟨⟨p, n⟩, hwrite, hfacts⟩ := Option.map_eq_some_iff.1 hwritten
  simp only [Prod.mk.injEq, decide_eq_true_iff] at hfacts
  obtain ⟨hvalue, hstamp, hceil⟩ := hfacts
  obtain ⟨hdecoded, hmoment⟩ := lastWrite?_eq_some hwrite
  refine ⟨p, n, hdecoded, hmoment, hvalue, hstamp, ?_, ?_⟩
  · rw [hstamp, hceil]
    decide
  · rw [hstamp, hvalue]
    norm_num

end Record

end RecordBoard
