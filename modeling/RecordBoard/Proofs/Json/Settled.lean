import RecordBoard.Proofs.Json.RoundTrip
import RecordBoard.Proofs.Number.Nearest
import RecordBoard.Proofs.Number.Whole

/-!
# Doubles that are read where they were written

The decimal that is written for a double is rounded to that double, but the reader of numerals does
not round it: it rounds the digits, it rounds the power of ten, and it rounds their product or
quotient.  Where the first two roundings change nothing the third is the right one.  That is so for
digits up to `2 ^ 53` counted in a power of ten between `10 ^ (-22)` and `10 ^ 22`: fifteen digits
and more, such as seconds since the epoch to the microsecond.  Beyond that the reader may find a
neighbour of the double.

What is read in place of a double is then written in another way, so a reader sees it: no two
doubles are written alike.  A value is read where it was written exactly if each double in it is.

## Main definitions

* `Binary64.IsSettled` — a double that is read where it was written.
* `Binary64.IsShort` — a double whose numeral is short.
* `Value.doubles` — the doubles in a value.

## Main results

* `scaled?_of_short` — a short numeral is rounded once.
* `text_injective` — no two doubles are written alike.
* `isSettled_of_isShort` — a double with a short numeral is read where it was written.
* `reread_eq_self_iff` — a value is, if and only if all its doubles are.
-/

namespace RecordBoard

-- Powers are those of the core library, whatever else an importing module knows.
attribute [local instance (2000)] instPowNat

open Binary64 (unitsInOne unitsInOne_pos ofQuotient? ofQuotient?_congr IsRepresentable)
open Decimal (step step_pos pow_ten_pos)

namespace Json.Numeral

/-! ## Short numerals -/

/-- A short numeral is rounded once. -/
theorem scaled?_of_short {m : Nat} {e : Int} (hlt : m < 2 ^ (64 : Nat)) (hm : IsRepresentable m)
    (he : e.natAbs ≤ 22) : scaled? m e = ofQuotient? false (step e * m) (10 ^ (-e).toNat) := by
  obtain ⟨f, hf, -⟩ := exists_ofInt m hlt
  have hfunits := Binary64.units_ofInt hm hf
  have hfsign := Binary64.negative_ofInt hf
  rcases Int.lt_or_le e 0 with hneg | hnonneg
  · -- dividing: both sides are exact, and what they have in common cancels
    obtain ⟨p, hp⟩ := exists_powerOfTen e.natAbs (Nat.le_trans he (by decide))
    have hpunits := Binary64.units_powerOfTen he hp
    have hpsign := Binary64.negative_ofQuotient hp
    have hsteps : (e.natAbs - 1) / 308 = 0 := by omega
    have hscaled : scaled? m e = f.div? p := by
      unfold scaled?
      simp only [hf, hneg, hsteps, divided, hp, Option.bind_eq_bind, Option.bind_some, if_true,
        Nat.mul_zero, Nat.sub_zero]
    have hstep : step e = unitsInOne := by
      rw [step, show e.toNat = 0 by omega, Nat.pow_zero, Nat.mul_one]
    rw [hscaled, Binary64.div?, hfsign, hpsign, hfunits, hpunits, hstep,
      Binary64.ofQuotient?_mul_left _ unitsInOne_pos, show (-e).toNat = e.natAbs by omega]
    rfl
  have hone : (-e).toNat = 0 := by omega
  rcases Nat.eq_zero_or_pos m with rfl | hpos
  · have hzero : f.isZero = true := by
      rw [Nat.mul_zero] at hfunits
      exact decide_eq_true
        ((Nat.mul_eq_zero.1 hfunits).resolve_right (Nat.ne_of_gt (Nat.two_pow_pos _)))
    have hscaled : scaled? 0 e = some f := by
      unfold scaled?
      simp only [hf, Int.not_lt.2 hnonneg, hzero, Option.bind_eq_bind, Option.bind_some, if_false,
        if_true]
    rw [hscaled, ← hf, Binary64.ofInt?, Int.natAbs_natCast, decide_eq_false (by omega), hone,
      Nat.pow_zero, Nat.mul_zero, Nat.mul_zero]
  · -- multiplying
    obtain ⟨p, hp⟩ := exists_powerOfTen e.toNat (by omega)
    have hpunits := Binary64.units_powerOfTen (by omega) hp
    have hpsign := Binary64.negative_ofQuotient hp
    have hnonzero : f.isZero = false := by
      refine decide_eq_false fun hzero => ?_
      rw [Binary64.units, hzero, Nat.zero_mul] at hfunits
      exact absurd hfunits.symm (Nat.ne_of_gt (Nat.mul_pos unitsInOne_pos hpos))
    have hscaled : scaled? m e = f.mul? p := by
      unfold scaled?
      simp only [hf, Int.not_lt.2 hnonneg, hnonzero, hp, show e ≤ 308 by omega, Option.bind_eq_bind,
        Option.bind_some, if_false, if_true, Bool.false_eq_true]
    rw [hscaled, Binary64.mul?, hfsign, hpsign, hfunits, hpunits]
    refine ofQuotient?_congr false unitsInOne_pos (pow_ten_pos _) ?_
    rw [step, hone, Nat.pow_zero]
    grind

/-- What is written out fits the significand. -/
theorem written_digits {x : Decimal} (hx : x.IsWritable) :
    0 < (written x).digits ∧ (written x).digits < 2 ^ (64 : Nat) := by
  unfold written
  split
  next hwhole =>
    have hlt := mul_pow_lt hwhole.1 (by omega)
    refine ⟨Nat.mul_pos (Nat.mul_pos hx.pos (pow_ten_pos _)) (by decide), ?_⟩
    dsimp only
    omega
  next => exact ⟨hx.pos, Nat.lt_trans hx.lt (by decide)⟩

/-- Writing a whole number out does not change what it is rounded to. -/
theorem ofQuotient?_written (negative : Bool) (x : Decimal) :
    ofQuotient? negative (step (written x).exponent * (written x).digits)
        (10 ^ (-(written x).exponent).toNat) =
      ofQuotient? negative (step x.exponent * x.digits) (10 ^ (-x.exponent).toNat) := by
  unfold written
  split
  next hwhole =>
    refine ofQuotient?_congr negative (pow_ten_pos _) (pow_ten_pos _) ?_
    have hstep : step (-1) = unitsInOne := by
      rw [step, show (-1 : Int).toNat = 0 from rfl, Nat.pow_zero, Nat.mul_one]
    have hten : 10 ^ (-(-1 : Int)).toNat = 10 := rfl
    rw [hstep, hten, step, show (-x.exponent).toNat = 0 by omega, Nat.pow_zero]
    grind
  next => rfl

end Json.Numeral

open Json (Number)
open Json.Numeral (scaled? numeralOf written)

namespace Binary64

/-- The double is read where it was written. -/
def IsSettled (d : Binary64) : Prop := (Number.double d).reread = .double d

instance (d : Binary64) : Decidable d.IsSettled := inferInstanceAs (Decidable (_ = _))

/-- Its numeral has digits that are a double, counted in a power of ten that is one. -/
def IsShort (d : Binary64) : Prop :=
  IsRepresentable (numeralOf d).digits ∧ (numeralOf d).exponent.natAbs ≤ 22

instance (d : Binary64) : Decidable d.IsShort := inferInstanceAs (Decidable (_ ∧ _))

theorem eq_zero_of_isZero {d : Binary64} (h : d.isZero = true) : d = zero d.negative := by
  have hmantissa : d.mantissa = 0 := of_decide_eq_true h
  have hshift : d.shift = 0 := d.normalised.resolve_right (by rw [hmantissa]; decide)
  cases d
  cases hmantissa
  cases hshift
  rfl

theorem scaled?_zero : scaled? 0 (-1) = some (zero false) := by decide +kernel

/-! ## What is written -/

/-- Only zero has no digits but zeros. -/
theorem isZero_iff {d : Binary64} : d.isZero = true ↔ (numeralOf d).digits = 0 := by
  unfold numeralOf
  split
  next hzero => exact iff_of_true hzero rfl
  next hnot =>
    have hpos :=
      (Json.Numeral.written_digits (Decimal.isWritable_shortest (Bool.eq_false_iff.2 hnot))).1
    exact iff_of_false hnot (Nat.ne_of_gt hpos)

theorem digits_numeralOf_lt (d : Binary64) : (numeralOf d).digits < 2 ^ (64 : Nat) := by
  unfold numeralOf
  split
  next => decide
  next hnot =>
    exact (Json.Numeral.written_digits (Decimal.isWritable_shortest (Bool.eq_false_iff.2 hnot))).2

/-- The decimal that is read where a double other than zero was written is rounded to that
double. -/
theorem ofQuotient?_numeralOf {d : Binary64} (h : d.isZero = false) (negative : Bool) :
    ofQuotient? negative (step (numeralOf d).exponent * (numeralOf d).digits)
      (10 ^ (-(numeralOf d).exponent).toNat) = some { d with negative } := by
  obtain ⟨_, -, hchosen⟩ := Decimal.exists_shortest h
  have hnumeral : numeralOf d = written (Decimal.shortest d) := if_neg (Bool.eq_false_iff.1 h)
  rw [hnumeral, Json.Numeral.ofQuotient?_written,
    ofQuotient?_of_readsBack negative (Decimal.readsBack_of_chosen hchosen).1]

/-- A double can be told from its numeral and its sign, -/
theorem eq_of_numeralOf {d d' : Binary64} (hnumeral : numeralOf d = numeralOf d')
    (hsign : d.negative = d'.negative) : d = d' := by
  have hsame : d.isZero = d'.isZero := by rw [Bool.eq_iff_iff, isZero_iff, isZero_iff, hnumeral]
  cases hzero : d.isZero with
  | true =>
    rw [eq_zero_of_isZero hzero, eq_zero_of_isZero (hsame.symm.trans hzero), hsign]
  | false =>
    have hread : _ = some d := ofQuotient?_numeralOf hzero d.negative
    have hread' : _ = some d' := ofQuotient?_numeralOf (hsame.symm.trans hzero) d'.negative
    rw [hnumeral, hsign, hread'] at hread
    exact (Option.some.inj hread).symm

/-- and so from its written form. -/
theorem text_injective {d d' : Binary64} (h : d.text = d'.text) : d = d' := by
  have hread := Json.Numeral.ofBytes_encode_text d Json.endsValue_nil
  rw [h, Json.Numeral.ofBytes_encode_text d' Json.endsValue_nil] at hread
  obtain ⟨hsign, hdigits, hexponent, -⟩ := Json.Numeral.mk.inj (Prod.mk.inj (Except.ok.inj hread)).1
  refine eq_of_numeralOf ?_ hsign.symm
  cases hx : numeralOf d
  cases hy : numeralOf d'
  rw [hx, hy] at hdigits hexponent
  dsimp only at hdigits hexponent
  rw [hdigits, hexponent]

/-! ## What is read -/

/-- What a short numeral is scaled to is the double without its sign. -/
theorem scaled?_of_isShort {d : Binary64} (h : d.IsShort) :
    scaled? (numeralOf d).digits (numeralOf d).exponent = some { d with negative := false } := by
  obtain ⟨hdigits, hexponent⟩ := h
  cases hzero : d.isZero with
  | true =>
    rw [show numeralOf d = ⟨0, -1⟩ from if_pos hzero, eq_zero_of_isZero hzero]
    exact scaled?_zero
  | false =>
    rw [Json.Numeral.scaled?_of_short (digits_numeralOf_lt d) hdigits hexponent,
      ofQuotient?_numeralOf hzero]

/-- A double with a short numeral is read where it was written. -/
theorem isSettled_of_isShort {d : Binary64} (h : d.IsShort) : d.IsSettled := by
  rw [IsSettled, Json.reread_double (scaled?_of_isShort h)]
  cases hsign : d.negative <;> cases d <;> cases hsign <;> rfl

/-- A double that is not read where it was written is read as one that is written in another way. -/
theorem isSettled_iff_text {d : Binary64} :
    d.IsSettled ↔ (Number.double d).reread.text = d.text := by
  obtain ⟨f, hf⟩ := Json.Numeral.exists_scaled_numeralOf d
  rw [IsSettled, Json.reread_double hf, Number.double.injEq]
  exact ⟨congrArg text, text_injective⟩

end Binary64

namespace Json.Value

/-! ## Values -/

mutual

/-- The doubles in the value. -/
def doubles : Value → List Binary64
  | .number (.double d) => [d]
  | .array items => itemsDoubles items
  | .object fields => fieldsDoubles fields
  | _ => []

/-- The doubles in the items. -/
def itemsDoubles : List Value → List Binary64
  | [] => []
  | v :: rest => v.doubles ++ itemsDoubles rest

/-- The doubles in the values of the fields. -/
def fieldsDoubles : List (String × Value) → List Binary64
  | [] => []
  | (_, v) :: rest => v.doubles ++ fieldsDoubles rest

end

mutual

/-- A value is read where it was written if and only if its doubles are. -/
theorem reread_eq_self_iff (v : Value) : v.reread = v ↔ ∀ d ∈ v.doubles, d.IsSettled := by
  cases v with
  | number n =>
    cases n with
    | integer i fits => simp [reread, reread_integer, doubles]
    | double d => simp [reread, doubles, Binary64.IsSettled]
  | array items => simp [reread, doubles, rereadItems_eq_self_iff items]
  | object fields => simp [reread, doubles, rereadFields_eq_self_iff fields]
  | _ => simp [reread, doubles]

theorem rereadItems_eq_self_iff (items : List Value) :
    rereadItems items = items ↔ ∀ d ∈ itemsDoubles items, d.IsSettled := by
  cases items with
  | nil => simp [rereadItems, itemsDoubles]
  | cons v rest =>
    rw [rereadItems, List.cons.injEq, reread_eq_self_iff v, rereadItems_eq_self_iff rest,
      itemsDoubles, List.forall_mem_append]

theorem rereadFields_eq_self_iff (fields : List (String × Value)) :
    rereadFields fields = fields ↔ ∀ d ∈ fieldsDoubles fields, d.IsSettled := by
  cases fields with
  | nil => simp [rereadFields, fieldsDoubles]
  | cons e rest =>
    obtain ⟨name, v⟩ := e
    rw [rereadFields, List.cons.injEq, Prod.mk.injEq, reread_eq_self_iff v,
      rereadFields_eq_self_iff rest, fieldsDoubles, List.forall_mem_append]
    simp only [true_and]

end

end Json.Value

end RecordBoard
