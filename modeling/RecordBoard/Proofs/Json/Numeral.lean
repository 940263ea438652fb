import RecordBoard.Proofs.Json.Range
import RecordBoard.Proofs.Json.Reading
import RecordBoard.Proofs.Text.Utf8

/-!
# Reading written numbers

The reader of numerals takes what the writer of numbers wrote, up to the octet behind it, and finds
a number of the same kind.  An integer is found again as it was.  For a double the digits and the
exponent are found again, and with them a double, possibly a neighbour of the one that was written.

Behind a value there stands nothing, a comma or a closing bracket, and none of these can continue a
numeral.  That is all that is needed of what follows.

## Main results

* `EndsValue` — what can stand behind a value.
* `wholeDigits_octets`, `fractionDigits_octets`, `exponentDigits_octets` — the three readers of
  digits take the digits that were written.
* `ofBytes_integer` — a written integer is read as itself.
* `readsAs_layout` — the digits and the exponent that are read where a decimal was written.
* `ofBytes_double` — a written double is read as the double that these are scaled to.
-/

namespace RecordBoard.Json

-- Powers are those of the core library, whatever else an importing module knows: hence the
-- instance, and the type of each exponent.
attribute [local instance (2000)] instPowNat

open Utf8 (octets octets_nil octets_append octets_cons_of_lt)

/-! ## Octets of digits -/

/-- Characters that are decimal digits. -/
def AreDigits (chars : List Char) : Prop := ∀ c ∈ chars, c.isDigit = true

/-- The number that a digit stands for. -/
def digitValue (c : Char) : Nat := c.toNat - '0'.toNat

theorem toNat_of_isDigit {c : Char} (h : c.isDigit = true) : 48 ≤ c.toNat ∧ c.toNat ≤ 57 := by
  simpa [Char.isDigit, UInt32.le_iff_toNat_le] using h

theorem octets_cons_digit {c : Char} (h : c.isDigit = true) (chars : List Char) :
    octets (c :: chars) = UInt8.ofNat c.toNat :: octets chars := by
  have := toNat_of_isDigit h
  exact octets_cons_of_lt (by omega) chars

theorem digit?_of_isDigit {c : Char} (h : c.isDigit = true) :
    digit? (UInt8.ofNat c.toNat) = some (digitValue c) := by
  obtain ⟨hlow, hhigh⟩ := toNat_of_isDigit h
  have hle := (Utf8.octet_le_iff (n := c.toNat) (by omega) 0x30 (by decide)).2 hlow
  have hle' := (Utf8.octet_le_iff (n := 0x39) (by decide) c.toNat (by omega)).2 hhigh
  unfold digit? digitValue
  rw [if_pos (by simpa using ⟨hle, hle'⟩), Utf8.toNat_octet (by omega)]
  rfl

/-- No digit comes next. -/
def NoDigit (rest : Bytes) : Prop := ∀ b ∈ rest.head?, digit? b = none

/-- What can stand behind a value that was written: nothing, a comma or a closing bracket. -/
def EndsValue (rest : Bytes) : Prop := ∀ b ∈ rest.head?, b = 0x2C ∨ b = 0x5D ∨ b = 0x7D

theorem endsValue_nil : EndsValue [] := by
  intro b hb
  cases hb

theorem endsValue_cons {b : UInt8} (h : b = 0x2C ∨ b = 0x5D ∨ b = 0x7D) (rest : Bytes) :
    EndsValue (b :: rest) := by
  intro b' hb
  cases hb
  exact h

theorem noDigit_of_endsValue {rest : Bytes} (h : EndsValue rest) : NoDigit rest := by
  intro b hb
  rcases h b hb with rfl | rfl | rfl <;> rfl

theorem isDigit_of_noDigit {b : UInt8} {rest : Bytes} (h : NoDigit (b :: rest)) :
    isDigit b = false := by
  rw [isDigit, h b rfl]
  rfl

theorem ofDigitChars_cons (c : Char) (chars : List Char) (m : Nat) :
    Nat.ofDigitChars 10 (c :: chars) m = Nat.ofDigitChars 10 chars (m * 10 + digitValue c) := by
  rw [Nat.ofDigitChars_cons, Nat.mul_comm]
  rfl

/-- Further digits make a number no smaller. -/
theorem le_ofDigitChars (chars : List Char) (m : Nat) : m ≤ Nat.ofDigitChars 10 chars m := by
  induction chars generalizing m with
  | nil => exact Nat.le_refl m
  | cons c rest ih =>
    rw [ofDigitChars_cons]
    exact Nat.le_trans (by omega) (ih (m * 10 + digitValue c))

namespace Numeral

/-! ## The three readers of digits -/

theorem wholeDigits_octets {chars : List Char} (hchars : AreDigits chars) (m : Nat) {rest : Bytes}
    (hrest : NoDigit rest) (h : Nat.ofDigitChars 10 chars m < 2 ^ (64 : Nat)) :
    wholeDigits m (octets chars ++ rest) = (Nat.ofDigitChars 10 chars m, 0, rest) := by
  induction chars generalizing m with
  | nil =>
    cases rest with
    | nil => rfl
    | cons b rest =>
      simp only [octets_nil, List.nil_append, wholeDigits, hrest b rfl, Nat.ofDigitChars_nil]
  | cons c chars ih =>
    have hc := hchars c List.mem_cons_self
    have hlt := Nat.lt_of_le_of_lt (le_ofDigitChars chars (m * 10 + digitValue c))
      (by rwa [ofDigitChars_cons] at h)
    rw [octets_cons_digit hc, List.cons_append, wholeDigits, digit?_of_isDigit hc]
    dsimp only
    rw [if_pos hlt, ofDigitChars_cons]
    exact ih (fun c' hc' => hchars c' (List.mem_cons_of_mem c hc')) _
      (by rwa [ofDigitChars_cons] at h)

theorem fractionDigits_octets {chars : List Char} (hchars : AreDigits chars) (m taken : Nat)
    {rest : Bytes} (hrest : NoDigit rest) (h : Nat.ofDigitChars 10 chars m < 2 ^ (64 : Nat)) :
    fractionDigits m taken (octets chars ++ rest) =
      (Nat.ofDigitChars 10 chars m, taken + chars.length, rest) := by
  induction chars generalizing m taken with
  | nil =>
    cases rest with
    | nil => rfl
    | cons b rest =>
      simp only [octets_nil, List.nil_append, fractionDigits, hrest b rfl, Nat.ofDigitChars_nil,
        List.length_nil, Nat.add_zero]
  | cons c chars ih =>
    have hc := hchars c List.mem_cons_self
    rw [ofDigitChars_cons] at h
    have hlt := Nat.lt_of_le_of_lt (le_ofDigitChars chars (m * 10 + digitValue c)) h
    rw [octets_cons_digit hc, List.cons_append, fractionDigits, digit?_of_isDigit hc]
    dsimp only
    rw [if_pos hlt, ofDigitChars_cons, List.length_cons, Nat.add_comm chars.length, ← Nat.add_assoc]
    exact ih (fun c' hc' => hchars c' (List.mem_cons_of_mem c hc')) _ _ h

theorem exponentDigits_octets (enlarges : Bool) {chars : List Char} (hchars : AreDigits chars)
    (n : Nat) {rest : Bytes} (hrest : NoDigit rest)
    (h : Nat.ofDigitChars 10 chars n < 2 ^ (31 : Nat)) :
    exponentDigits enlarges n (octets chars ++ rest) = .ok (Nat.ofDigitChars 10 chars n, rest) := by
  induction chars generalizing n with
  | nil =>
    cases rest with
    | nil => rfl
    | cons b rest =>
      simp only [octets_nil, List.nil_append, exponentDigits, hrest b rfl, Nat.ofDigitChars_nil]
  | cons c chars ih =>
    have hc := hchars c List.mem_cons_self
    rw [ofDigitChars_cons] at h
    have hlt := Nat.lt_of_le_of_lt (le_ofDigitChars chars (n * 10 + digitValue c)) h
    have hnot : ¬ (enlarges && decide (2 ^ (31 : Nat) ≤ n * 10 + digitValue c)) = true := by
      simp only [Bool.and_eq_true, decide_eq_true_eq]
      omega
    rw [octets_cons_digit hc, List.cons_append, exponentDigits, digit?_of_isDigit hc]
    dsimp only
    rw [if_neg hnot, ofDigitChars_cons]
    exact ih (fun c' hc' => hchars c' (List.mem_cons_of_mem c hc')) _ h

/-! ## What may follow the digits before the point -/

theorem exponentPart_endsValue (m : Nat) (e : Int) {rest : Bytes} (h : EndsValue rest) :
    exponentPart m e rest = .ok ((e, false), rest) := by
  cases rest with
  | nil => rfl
  | cons b rest =>
    have hnot : ¬ (b = 0x65 ∨ b = 0x45) := by
      rcases h b rfl with rfl | rfl | rfl <;> decide
    rw [exponentPart, if_neg hnot]

/-- The written form of an exponent. -/
def exponentText (e : Int) : List Char :=
  'e' :: (if e < 0 then '-' else '+') :: Nat.toDigits 10 e.natAbs

theorem noDigit_exponentText (e : Int) (rest : Bytes) :
    NoDigit (octets (exponentText e) ++ rest) := by
  intro b hb
  rw [exponentText, octets_cons_of_lt (by decide)] at hb
  cases hb
  rfl

theorem areDigits_toDigits (n : Nat) : AreDigits (Nat.toDigits 10 n) :=
  fun _ hc => Nat.isDigit_of_mem_toDigits (by decide) (by decide) hc

theorem exponentPart_exponentText (m : Nat) (x : Int) {e : Int} (he : e.natAbs < 2 ^ (31 : Nat))
    {rest : Bytes} (hrest : EndsValue rest) :
    exponentPart m x (octets (exponentText e) ++ rest) = .ok ((x + e, true), rest) := by
  have hread := fun enlarges => exponentDigits_octets enlarges (areDigits_toDigits e.natAbs) 0
    (noDigit_of_endsValue hrest) (by rwa [Nat.ofDigitChars_ten_toDigits])
  rw [Nat.ofDigitChars_ten_toDigits] at hread
  obtain ⟨c, chars, hdigits⟩ :=
    List.exists_cons_of_ne_nil (Nat.toDigits_ne_nil (n := e.natAbs) (b := 10))
  have hc : c.isDigit = true :=
    areDigits_toDigits e.natAbs c (by rw [hdigits]; exact List.mem_cons_self)
  have hdigit : isDigit (UInt8.ofNat c.toNat) = true := by
    rw [isDigit, digit?_of_isDigit hc]
    rfl
  rw [hdigits, octets_cons_digit hc, List.cons_append] at hread
  rw [exponentText, hdigits]
  split
  · rw [octets_cons_of_lt (by decide), octets_cons_of_lt (by decide), octets_cons_digit hc,
      List.cons_append, List.cons_append, List.cons_append]
    show (if isDigit (UInt8.ofNat c.toNat) = true then _ else _) = _
    rw [if_pos hdigit, hread]
    simp only [Except.map, if_true]
    congr 3
    omega
  · rw [octets_cons_of_lt (by decide), octets_cons_of_lt (by decide), octets_cons_digit hc,
      List.cons_append, List.cons_append, List.cons_append]
    show (if isDigit (UInt8.ofNat c.toNat) = true then _ else _) = _
    rw [if_pos hdigit, hread]
    simp only [Except.map, Bool.false_eq_true, if_false]
    congr 3
    omega

theorem noDigit_point (chars : List Char) (rest : Bytes) :
    NoDigit (octets ('.' :: chars) ++ rest) := by
  intro b hb
  rw [octets_cons_of_lt (by decide)] at hb
  cases hb
  rfl

theorem tailParts_endsValue (negative : Bool) (m : Nat) {rest : Bytes} (h : EndsValue rest) :
    tailParts negative m 0 rest = .ok (⟨negative, m, 0, true⟩, rest) := by
  unfold tailParts
  split
  next after =>
    rcases h 0x2E rfl with h | h | h <;> exact absurd h (by decide)
  next =>
    rw [exponentPart_endsValue m _ h]
    rfl

theorem tailParts_exponentText (negative : Bool) (m : Nat) {e : Int}
    (he : e.natAbs < 2 ^ (31 : Nat)) {rest : Bytes} (h : EndsValue rest) :
    tailParts negative m 0 (octets (exponentText e) ++ rest) =
      .ok (⟨negative, m, e, false⟩, rest) := by
  unfold tailParts
  split
  next after heq =>
    rw [exponentText, octets_cons_of_lt (by decide)] at heq
    exact absurd (List.cons.inj heq).1 (by decide)
  next =>
    rw [exponentPart_exponentText m _ he h]
    simp only [Except.map, Int.natCast_zero, Int.zero_add, Bool.not_true, Bool.false_and]

theorem tailParts_point (negative : Bool) (m : Nat) (d : UInt8) (after : Bytes) :
    tailParts negative m 0 (0x2E :: d :: after) =
      if isDigit d then
        let (m, taken, rest) := fractionDigits m 0 (d :: after)
        (exponentPart m (((0 : Nat) : Int) - taken) rest).map fun ((x, _), rest) =>
          (⟨negative, m, x, false⟩, rest)
      else stopAt .badNumeral (d :: after) := rfl

theorem tailParts_fraction (negative : Bool) (m : Nat) {chars : List Char}
    (hchars : AreDigits chars) (hne : chars ≠ []) {rest : Bytes} (hrest : NoDigit rest)
    (h : Nat.ofDigitChars 10 chars m < 2 ^ (64 : Nat)) :
    tailParts negative m 0 (octets ('.' :: chars) ++ rest) =
      (exponentPart (Nat.ofDigitChars 10 chars m) (-chars.length) rest).map fun ((x, _), rest) =>
        (⟨negative, Nat.ofDigitChars 10 chars m, x, false⟩, rest) := by
  have hread := fractionDigits_octets hchars m 0 hrest h
  obtain ⟨c, chars, rfl⟩ := List.exists_cons_of_ne_nil hne
  have hdigit : isDigit (UInt8.ofNat c.toNat) = true := by
    rw [isDigit, digit?_of_isDigit (hchars c List.mem_cons_self)]
    rfl
  rw [octets_cons_digit (hchars c List.mem_cons_self), List.cons_append] at hread
  rw [octets_cons_of_lt (by decide), octets_cons_digit (hchars c List.mem_cons_self),
    List.cons_append, List.cons_append]
  refine (tailParts_point negative m _ _).trans ?_
  rw [if_pos hdigit, hread]
  simp only [Int.natCast_zero, Int.zero_sub, Nat.zero_add]

/-! ## Whole numerals -/

theorem ofUnsigned_zero (negative : Bool) {rest : Bytes} (h : NoDigit rest) :
    ofUnsigned negative (octets ['0'] ++ rest) = tailParts negative 0 0 rest := by
  rw [octets_cons_of_lt (by decide), octets_nil, List.cons_append, List.nil_append]
  cases rest with
  | nil => rfl
  | cons b rest =>
    show (if isDigit b = true then _ else _) = _
    rw [if_neg (by rw [isDigit_of_noDigit h]; decide)]

theorem ofUnsigned_digits (negative : Bool) {c : Char} {chars : List Char}
    (hchars : AreDigits (c :: chars)) (hc : c ≠ '0') {rest : Bytes} (hrest : NoDigit rest)
    (h : Nat.ofDigitChars 10 (c :: chars) 0 < 2 ^ (64 : Nat)) :
    ofUnsigned negative (octets (c :: chars) ++ rest) =
      tailParts negative (Nat.ofDigitChars 10 (c :: chars) 0) 0 rest := by
  have hdigit := hchars c List.mem_cons_self
  have hvalue : digitValue c ≠ 0 := by
    intro hzero
    have hrange := toNat_of_isDigit hdigit
    have hnat : c.toNat = 48 := by
      unfold digitValue at hzero
      have : '0'.toNat = 48 := rfl
      omega
    exact hc (by rw [← Char.ofNat_toNat c, hnat])
  rw [ofDigitChars_cons, Nat.zero_mul, Nat.zero_add] at h ⊢
  have hread := wholeDigits_octets (fun c' hc' => hchars c' (List.mem_cons_of_mem c hc'))
    (digitValue c) hrest h
  rw [octets_cons_digit hdigit, List.cons_append]
  unfold ofUnsigned
  dsimp only
  rw [digit?_of_isDigit hdigit]
  generalize digitValue c = v at *
  cases v with
  | zero => exact absurd rfl hvalue
  | succ v =>
    show tailParts negative (wholeDigits (v + 1) (octets chars ++ rest)).1
      (wholeDigits (v + 1) (octets chars ++ rest)).2.1
      (wholeDigits (v + 1) (octets chars ++ rest)).2.2 = _
    rw [hread]

theorem exists_cons_toDigits {n : Nat} (hn : 0 < n) :
    ∃ c chars, Nat.toDigits 10 n = c :: chars ∧ c ≠ '0' := by
  induction n using Nat.strongRecOn with
  | ind n ih =>
    rw [Nat.toDigits_eq_if (by decide)]
    split
    next hsmall =>
      refine ⟨_, [], rfl, fun hzero => ?_⟩
      have : ∀ k < 10, 0 < k → Nat.digitChar k ≠ '0' := by decide
      exact this n hsmall hn hzero
    next hlarge =>
      obtain ⟨c, chars, hdigits, hc⟩ := ih (n / 10) (by omega) (by omega)
      exact ⟨c, chars ++ [Nat.digitChar (n % 10)], by rw [hdigits, List.cons_append], hc⟩

/-- A written natural, whatever follows it. -/
theorem ofUnsigned_toDigits (negative : Bool) {n : Nat} (h : n < 2 ^ (64 : Nat)) {rest : Bytes}
    (hrest : NoDigit rest) :
    ofUnsigned negative (octets (Nat.toDigits 10 n) ++ rest) = tailParts negative n 0 rest := by
  rcases Nat.eq_zero_or_pos n with rfl | hpos
  · exact ofUnsigned_zero negative hrest
  · obtain ⟨c, chars, hdigits, hc⟩ := exists_cons_toDigits hpos
    have hchars := areDigits_toDigits n
    have hvalue := Nat.ofDigitChars_ten_toDigits (n := n)
    rw [hdigits] at hchars hvalue ⊢
    rw [ofUnsigned_digits negative hchars hc hrest (by rwa [hvalue]), hvalue]

/-- A written natural with a point between its digits. -/
theorem ofUnsigned_split (negative : Bool) {n k : Nat} (hn : 0 < n) (h : n < 2 ^ (64 : Nat))
    (hk : 0 < k) (hk' : k < (Nat.toDigits 10 n).length) {rest : Bytes} (hrest : NoDigit rest) :
    ofUnsigned negative
        (octets ((Nat.toDigits 10 n).take k ++ '.' :: (Nat.toDigits 10 n).drop k) ++ rest) =
      (exponentPart n (-((Nat.toDigits 10 n).length - k : Nat)) rest).map fun ((x, _), rest) =>
        (⟨negative, n, x, false⟩, rest) := by
  have hdigits := areDigits_toDigits n
  have hvalue := Nat.ofDigitChars_ten_toDigits (n := n)
  obtain ⟨c, chars, hcons, hc⟩ := exists_cons_toDigits hn
  generalize Nat.toDigits 10 n = digits at *
  subst hcons
  obtain ⟨k, rfl⟩ : ∃ j, k = j + 1 := ⟨k - 1, by omega⟩
  have hfront : AreDigits (c :: chars.take k) :=
    fun c' hc' => hdigits c' (List.mem_of_mem_take (i := k + 1) hc')
  have hback : AreDigits (chars.drop k) :=
    fun c' hc' => hdigits c' (List.mem_of_mem_drop (i := k + 1) hc')
  have hne : chars.drop k ≠ [] := by
    intro hnil
    have hlength := congrArg List.length hnil
    simp only [List.length_drop, List.length_nil, List.length_cons] at hlength hk'
    omega
  rw [← List.take_append_drop (k + 1) (c :: chars), Nat.ofDigitChars_append] at hvalue
  rw [List.take_succ_cons, List.drop_succ_cons] at hvalue ⊢
  have hpart := le_ofDigitChars (chars.drop k) (Nat.ofDigitChars 10 (c :: chars.take k) 0)
  rw [octets_append, List.append_assoc,
    ofUnsigned_digits negative hfront hc (noDigit_point _ _) (by omega),
    tailParts_fraction negative _ hback hne hrest (by omega), hvalue, List.length_drop,
    List.length_cons, Nat.add_sub_add_right]

/-- Zeros behind a number are factors of ten. -/
theorem toDigits_mul_pow {n : Nat} (hn : 0 < n) (k : Nat) :
    Nat.toDigits 10 (n * 10 ^ k) = Nat.toDigits 10 n ++ List.replicate k '0' := by
  induction k with
  | zero => rw [Nat.pow_zero, Nat.mul_one, List.replicate_zero, List.append_nil]
  | succ k ih =>
    have hpos : 0 < n * 10 ^ k := Nat.mul_pos hn (Decimal.pow_ten_pos k)
    have hzero : Nat.toDigits 10 0 = ['0'] := rfl
    have happend := Nat.toDigits_append_toDigits (b := 10) (d := 0) (by decide) hpos (by decide)
    rw [Nat.pow_succ, ← Nat.mul_assoc, Nat.mul_comm _ 10, ← Nat.add_zero (10 * _), ← happend, hzero,
      ih, List.append_assoc, ← List.replicate_succ']

/-! ## Written doubles -/

theorem length_toDigits_le {x : Decimal} (hx : x.IsWritable) :
    (Nat.toDigits 10 x.digits).length ≤ 17 :=
  (Nat.length_toDigits_le_iff (by decide) (by decide)).2 hx.lt

/-- Characters that are read, whatever stands behind them, as the numeral of a decimal. -/
def ReadsAs (negative : Bool) (chars : List Char) (x : Decimal) : Prop :=
  ∀ rest, EndsValue rest →
    ofUnsigned negative (octets chars ++ rest) = .ok (⟨negative, x.digits, x.exponent, false⟩, rest)

/-- A natural with a zero behind the point: the zero is one of the digits that are read. -/
theorem readsAs_whole (negative : Bool) {n : Nat} (h : n < 10 ^ (17 : Nat)) :
    ReadsAs negative (Nat.toDigits 10 n ++ ['.', '0']) ⟨n * 10, -1⟩ := by
  intro rest hrest
  have hzero : AreDigits ['0'] := by
    intro c hc
    cases List.mem_singleton.1 hc
    rfl
  have hvalue : Nat.ofDigitChars 10 ['0'] n = n * 10 := by
    rw [ofDigitChars_cons, Nat.ofDigitChars_nil]
    rfl
  have hlt : n * 10 < 2 ^ (64 : Nat) := by omega
  rw [octets_append, List.append_assoc, ofUnsigned_toDigits negative (by omega) (noDigit_point _ _),
    tailParts_fraction negative n hzero (by decide) (noDigit_of_endsValue hrest) (by rwa [hvalue]),
    hvalue, exponentPart_endsValue _ _ hrest]
  rfl

/-- A fraction below one. -/
theorem readsAs_fraction (negative : Bool) {n : Nat} (h : n < 2 ^ (64 : Nat)) (zeros : Nat) :
    ReadsAs negative (['0', '.'] ++ List.replicate zeros '0' ++ Nat.toDigits 10 n)
      ⟨n, -(zeros + (Nat.toDigits 10 n).length : Nat)⟩ := by
  intro rest hrest
  have hchars : AreDigits (List.replicate zeros '0' ++ Nat.toDigits 10 n) := by
    intro c hc
    rcases List.mem_append.1 hc with hc | hc
    · rw [List.eq_of_mem_replicate hc]
      rfl
    · exact areDigits_toDigits n c hc
  have hvalue : Nat.ofDigitChars 10 (List.replicate zeros '0' ++ Nat.toDigits 10 n) 0 = n := by
    rw [Nat.ofDigitChars_append, Nat.ofDigitChars_replicate_zero, Nat.mul_zero,
      Nat.ofDigitChars_ten_toDigits]
  have hne : List.replicate zeros '0' ++ Nat.toDigits 10 n ≠ [] :=
    List.append_ne_nil_of_right_ne_nil _ Nat.toDigits_ne_nil
  have hlength : (List.replicate zeros '0' ++ Nat.toDigits 10 n).length =
      zeros + (Nat.toDigits 10 n).length := by
    rw [List.length_append, List.length_replicate]
  rw [List.append_assoc, List.cons_append, List.cons_append,
    List.nil_append, ← List.singleton_append, octets_append, List.append_assoc,
      ofUnsigned_zero negative (noDigit_point _ _),
    tailParts_fraction negative 0 hchars hne (noDigit_of_endsValue hrest) (by rwa [hvalue]), hvalue,
    hlength, exponentPart_endsValue _ _ hrest]
  rfl

/-- Digits with a point between them. -/
theorem readsAs_split (negative : Bool) {n k : Nat} (hn : 0 < n) (h : n < 2 ^ (64 : Nat))
    (hk : 0 < k) (hk' : k < (Nat.toDigits 10 n).length) :
    ReadsAs negative ((Nat.toDigits 10 n).take k ++ '.' :: (Nat.toDigits 10 n).drop k)
      ⟨n, -((Nat.toDigits 10 n).length - k : Nat)⟩ := by
  intro rest hrest
  rw [ofUnsigned_split negative hn h hk hk' (noDigit_of_endsValue hrest),
    exponentPart_endsValue _ _ hrest]
  rfl

/-- Digits in front of an exponent. -/
theorem readsAs_exponent (negative : Bool) {x : Decimal} (hx : x.IsWritable) {leading : Int}
    (hleading : leading = x.exponent + (Nat.toDigits 10 x.digits).length - 1)
    (hbound : leading.natAbs < 2 ^ (31 : Nat)) :
    ReadsAs negative
      ((match Nat.toDigits 10 x.digits with
        | [] => []
        | [first] => [first]
        | first :: rest => first :: '.' :: rest) ++ exponentText leading) x := by
  intro rest hrest
  have hlt : x.digits < 2 ^ (64 : Nat) := Nat.lt_trans hx.lt (by decide)
  have hpoint := ofUnsigned_split (k := 1) negative hx.pos hlt (by decide)
  have hplain := ofUnsigned_toDigits negative hlt (noDigit_exponentText leading rest)
  have hne : Nat.toDigits 10 x.digits ≠ [] := Nat.toDigits_ne_nil
  generalize Nat.toDigits 10 x.digits = digits at *
  rw [octets_append, List.append_assoc]
  match digits, hne with
  | [first], _ =>
    dsimp only
    rw [hplain, tailParts_exponentText negative _ hbound hrest, hleading]
    simp only [List.length_singleton, Int.natCast_one, Int.add_sub_cancel]
  | first :: second :: others, _ =>
    have hread := hpoint (by rw [List.length_cons, List.length_cons]; omega)
      (noDigit_exponentText leading rest)
    rw [List.take_succ_cons, List.take_zero, List.drop_succ_cons, List.drop_zero,
      exponentPart_exponentText _ _ hbound hrest, List.singleton_append] at hread
    dsimp only
    rw [hread]
    simp only [Except.map, hleading, List.length_cons]
    congr 3
    omega

theorem exponent_le {x : Decimal} (hx : x.IsWritable) : x.exponent ≤ 308 := by
  apply Int.not_lt.1
  intro hlt
  have hle := hx.le (by omega)
  have hfactor := Nat.le_mul_of_pos_left (10 ^ x.exponent.toNat) hx.pos
  have hpow := Decimal.pow_ten_le 309 x.exponent.toNat (by omega)
  have hchain := Nat.le_trans hpow (Nat.le_trans hfactor hle)
  exact absurd hchain (Nat.not_le_of_lt Decimal.near_largest.2.2.2.2)

/-- The decimal that is read where one was written: a whole number gets a zero behind its point. -/
def written (x : Decimal) : Decimal :=
  if 0 ≤ x.exponent ∧ x.exponent + (Nat.toDigits 10 x.digits).length ≤ 16 then
    ⟨x.digits * 10 ^ x.exponent.toNat * 10, -1⟩
  else x

/-- A whole number with its zeros written out has seventeen digits at most. -/
theorem mul_pow_lt {x : Decimal} (he : 0 ≤ x.exponent)
    (h : x.exponent + (Nat.toDigits 10 x.digits).length ≤ 17) :
    x.digits * 10 ^ x.exponent.toNat < 10 ^ (17 : Nat) := by
  have hdigits : x.digits < 10 ^ (Nat.toDigits 10 x.digits).length :=
    (Nat.length_toDigits_le_iff (by decide) Nat.length_toDigits_pos).1 (Nat.le_refl _)
  refine Nat.lt_of_lt_of_le (Nat.mul_lt_mul_of_pos_right hdigits (Decimal.pow_ten_pos _)) ?_
  rw [← Nat.pow_add]
  exact Decimal.pow_ten_le _ 17 (by omega)

/-- The written form of a decimal that was chosen for a double. -/
theorem readsAs_layout (negative : Bool) {x : Decimal} (hx : x.IsWritable) :
    ReadsAs negative
      (Decimal.layout (Nat.toDigits 10 x.digits)
        (x.exponent + (Nat.toDigits 10 x.digits).length - 1)) (written x) := by
  have hlt : x.digits < 2 ^ (64 : Nat) := Nat.lt_trans hx.lt (by decide)
  have hlength := length_toDigits_le hx
  have hpos : 0 < (Nat.toDigits 10 x.digits).length := Nat.length_toDigits_pos
  have hge := hx.ge
  have hle := exponent_le hx
  unfold Decimal.layout
  split
  next hwhole =>
    dsimp only
    split
    next hshort =>
      rw [← toDigits_mul_pow hx.pos, written, if_pos (by omega),
        show (x.exponent + (Nat.toDigits 10 x.digits).length - 1).toNat + 1 -
          (Nat.toDigits 10 x.digits).length = x.exponent.toNat by omega]
      exact readsAs_whole negative (mul_pow_lt (by omega) (by omega))
    next hlong =>
      have hwritten : written x = x := if_neg (by omega)
      rw [hwritten]
      have hread := readsAs_split negative hx.pos hlt
        (k := (x.exponent + (Nat.toDigits 10 x.digits).length - 1).toNat + 1) (by omega) (by omega)
      rwa [show -(((Nat.toDigits 10 x.digits).length -
          ((x.exponent + (Nat.toDigits 10 x.digits).length - 1).toNat + 1) : Nat) : Int) =
          x.exponent by omega] at hread
  next hnot =>
    have hwritten : written x = x := if_neg (by omega)
    rw [hwritten]
    split
    next hsmall =>
      have hread := readsAs_fraction negative hlt
        (-(x.exponent + (Nat.toDigits 10 x.digits).length - 1) - 1).toNat
      rwa [show -(((-(x.exponent + (Nat.toDigits 10 x.digits).length - 1) - 1).toNat +
          (Nat.toDigits 10 x.digits).length : Nat) : Int) = x.exponent by omega] at hread
    next => exact readsAs_exponent negative hx rfl (by omega)

/-- What is read is in range. -/
theorem exists_scaled_written {x : Decimal} (hx : x.IsWritable) :
    ∃ d, scaled? (written x).digits (written x).exponent = some d := by
  unfold written
  split
  next hwhole =>
    have hlt := mul_pow_lt hwhole.1 (by omega)
    exact exists_scaled_of_neg _ (by dsimp only; omega) (-1) (by decide)
  next => exact exists_scaled_of_isWritable hx

/-- A double without its sign. -/
def unsignedText (d : Binary64) : List Char :=
  if d.isZero then ['0', '.', '0']
  else Decimal.layout (Nat.toDigits 10 (Decimal.shortest d).digits)
    ((Decimal.shortest d).exponent + (Nat.toDigits 10 (Decimal.shortest d).digits).length - 1)

/-- The decimal that is read where a double was written. -/
def numeralOf (d : Binary64) : Decimal :=
  if d.isZero then ⟨0, -1⟩ else written (Decimal.shortest d)

theorem readsAs_unsignedText (negative : Bool) (d : Binary64) :
    ReadsAs negative (unsignedText d) (numeralOf d) := by
  unfold unsignedText numeralOf
  split
  next => exact readsAs_whole negative (n := 0) (by decide)
  next hzero =>
    exact readsAs_layout negative (Decimal.isWritable_shortest (Bool.eq_false_iff.2 hzero))

theorem exists_scaled_numeralOf (d : Binary64) :
    ∃ f, scaled? (numeralOf d).digits (numeralOf d).exponent = some f := by
  unfold numeralOf
  split
  next => exact exists_scaled_of_neg 0 (by decide) (-1) (by decide)
  next hzero =>
    exact exists_scaled_written (Decimal.isWritable_shortest (Bool.eq_false_iff.2 hzero))

theorem encode_text_double (d : Binary64) :
    Utf8.encode d.text = octets ((if d.negative then ['-'] else []) ++ unsignedText d) := by
  unfold Binary64.text unsignedText
  dsimp only
  split
  · rw [Utf8.encode_ofList]
  · rw [Utf8.encode_ofList]

/-! ## Whole numerals are counted in ones -/

/-- Without an exponent the power of ten stays as it is. -/
theorem eq_of_exponentPart {m : Nat} {e x : Int} {input rest : Bytes}
    (h : exponentPart m e input = .ok ((x, false), rest)) : x = e := by
  unfold exponentPart at h
  split at h
  next c after =>
    split at h
    · dsimp only at h
      split at h
      · cases h
      · split at h
        · obtain ⟨_, -, hx⟩ := exists_of_map_eq_ok h
          cases hx
        · cases h
    · cases h
      rfl
  next =>
    cases h
    rfl

theorem exponent_of_tailParts {negative : Bool} {m dropped : Nat} {input rest : Bytes} {n : Numeral}
    (h : tailParts negative m dropped input = .ok (n, rest)) (hwhole : n.isWhole = true) :
    n.exponent = 0 := by
  unfold tailParts at h
  split at h
  next after =>
    split at h
    · cases h
    next c digits =>
      split at h
      · obtain ⟨_, -, hn⟩ := exists_of_map_eq_ok h
        cases hn
        cases hwhole
      · cases h
  next =>
    obtain ⟨⟨⟨x, found⟩, rest'⟩, hread, hn⟩ := exists_of_map_eq_ok h
    cases hn
    rw [Bool.and_eq_true, Bool.not_eq_true', beq_iff_eq] at hwhole
    obtain ⟨rfl, rfl⟩ := hwhole
    exact eq_of_exponentPart hread

/-- A numeral that has neither point nor exponent and kept its digits is counted in ones. -/
theorem exponent_of_isWhole {input rest : Bytes} {n : Numeral} (h : ofBytes input = .ok (n, rest))
    (hwhole : n.isWhole = true) : n.exponent = 0 := by
  have hunsigned : ∀ {negative : Bool} {input : Bytes}, ofUnsigned negative input = .ok (n, rest) →
      n.exponent = 0 := by
    intro negative input h
    unfold ofUnsigned at h
    split at h
    · cases h
    split at h
    · cases h
    · split at h
      · split at h
        · cases h
        · exact exponent_of_tailParts h hwhole
      · exact exponent_of_tailParts h hwhole
    · exact exponent_of_tailParts h hwhole
  unfold ofBytes at h
  split at h
  · exact hunsigned h
  · exact hunsigned h

/-! ## Signs -/

/-- What is read without a sign begins with a digit. -/
theorem begins_of_ofUnsigned {negative : Bool} {input rest : Bytes} {n : Numeral}
    (h : ofUnsigned negative input = .ok (n, rest)) :
    ∃ b after, input = b :: after ∧ isDigit b = true := by
  cases input with
  | nil => cases h
  | cons b after =>
    refine ⟨b, after, rfl, ?_⟩
    unfold ofUnsigned at h
    unfold isDigit
    cases hdigit : digit? b with
    | none =>
      simp only [hdigit] at h
      cases h
    | some _ => rfl

theorem ofBytes_of_ofUnsigned {input rest : Bytes} {n : Numeral}
    (h : ofUnsigned false input = .ok (n, rest)) : ofBytes input = .ok (n, rest) := by
  obtain ⟨b, after, rfl, hdigit⟩ := begins_of_ofUnsigned h
  unfold ofBytes
  split
  next heq =>
    rw [(List.cons.inj heq).1] at hdigit
    exact absurd hdigit (by decide)
  next => exact h

theorem ofBytes_signed {negative : Bool} {chars : List Char} {rest : Bytes} {n : Numeral}
    (h : ofUnsigned negative (octets chars ++ rest) = .ok (n, rest)) :
    ofBytes (octets ((if negative then ['-'] else []) ++ chars) ++ rest) = .ok (n, rest) := by
  cases negative with
  | false => exact ofBytes_of_ofUnsigned h
  | true =>
    rw [if_pos rfl, List.singleton_append, octets_cons_of_lt (by decide), List.cons_append]
    exact h

/-- A written double is read as its numeral. -/
theorem ofBytes_encode_text (d : Binary64) {rest : Bytes} (hrest : EndsValue rest) :
    ofBytes (Utf8.encode d.text ++ rest) =
      .ok (⟨d.negative, (numeralOf d).digits, (numeralOf d).exponent, false⟩, rest) := by
  rw [encode_text_double]
  exact ofBytes_signed (readsAs_unsignedText d.negative d rest hrest)

theorem number?_double {negative : Bool} {m : Nat} {e : Int} {d : Binary64}
    (h : scaled? m e = some d) :
    number? ⟨negative, m, e, false⟩ = some (.double (if negative then d.neg else d)) := by
  rw [number?, dif_neg (fun hwhole => Bool.noConfusion hwhole.1), h]
  rfl

theorem number?_integer {i : Int} (fits : -2 ^ (63 : Nat) ≤ i ∧ i < 2 ^ (64 : Nat)) :
    number? ⟨decide (i < 0), i.natAbs, 0, true⟩ = some (.integer i fits) := by
  have hint : toInt ⟨decide (i < 0), i.natAbs, 0, true⟩ = i := by
    unfold toInt
    dsimp only
    split
    next h => rw [decide_eq_true_eq] at h; omega
    next h => rw [decide_eq_true_eq] at h; omega
  have hzero : ¬ (decide (i < 0) = true ∧ i.natAbs = 0) := by
    rw [decide_eq_true_eq]
    omega
  unfold number?
  rw [dif_pos ⟨rfl, hzero, by rw [hint]; exact fits⟩]
  simp only [hint]

end Numeral

/-! ## Written numbers -/

theorem ofBytes_of_number? {input rest : Bytes} {numeral : Numeral} {n : Number}
    (h : Numeral.ofBytes input = .ok (numeral, rest)) (hn : numeral.number? = some n) :
    Number.ofBytes input = .ok (n, rest) := by
  unfold Number.ofBytes
  simp only [h, bind, Except.bind, hn]

/-- A written integer is read as itself. -/
theorem ofBytes_integer {i : Int} (fits : -2 ^ (63 : Nat) ≤ i ∧ i < 2 ^ (64 : Nat)) {rest : Bytes}
    (hrest : EndsValue rest) :
    Number.ofBytes (Utf8.encode (Number.text (.integer i fits)) ++ rest) =
      .ok (.integer i fits, rest) := by
  have htext : Utf8.encode (Number.text (.integer i fits)) =
      octets ((if decide (i < 0) = true then ['-'] else []) ++ Nat.toDigits 10 i.natAbs) := by
    show Utf8.encode (toString i) = _
    rw [Int.toString_eq_repr, Int.repr_eq_if]
    split
    next h =>
      rw [Nat.repr_eq_ofList_toDigits, Utf8.encode_ofList,
        if_neg (by rw [decide_eq_true_eq]; omega), show i.toNat = i.natAbs by omega]
      rfl
    next h =>
      rw [Nat.repr_eq_ofList_toDigits, Utf8.encode_append,
        Utf8.encode_ofList (Nat.toDigits 10 (-i).toNat), if_pos (by rw [decide_eq_true_eq]; omega),
        show (-i).toNat = i.natAbs by omega, octets_append]
      rfl
  have hunsigned : Numeral.ofUnsigned (decide (i < 0)) (octets (Nat.toDigits 10 i.natAbs) ++ rest) =
      .ok (⟨decide (i < 0), i.natAbs, 0, true⟩, rest) := by
    rw [Numeral.ofUnsigned_toDigits _ (by omega) (noDigit_of_endsValue hrest)]
    exact Numeral.tailParts_endsValue _ _ hrest
  rw [htext]
  exact ofBytes_of_number? (Numeral.ofBytes_signed hunsigned) (Numeral.number?_integer fits)

/-- A written double is read as the double that its numeral is scaled to. -/
theorem ofBytes_double {d f : Binary64}
    (hf : Numeral.scaled? (Numeral.numeralOf d).digits (Numeral.numeralOf d).exponent = some f)
    {rest : Bytes} (hrest : EndsValue rest) :
    Number.ofBytes (Utf8.encode d.text ++ rest) =
      .ok (.double (if d.negative then f.neg else f), rest) :=
  ofBytes_of_number? (Numeral.ofBytes_encode_text d hrest) (Numeral.number?_double hf)

/-- The number that is read where a number was written. -/
def Number.reread (n : Number) : Number :=
  match Number.ofBytes (Utf8.encode n.text) with
  | .ok (m, _) => m
  | .error _ => n

theorem reread_integer (i : Int) (fits : -2 ^ (63 : Nat) ≤ i ∧ i < 2 ^ (64 : Nat)) :
    (Number.integer i fits).reread = .integer i fits := by
  have hread := ofBytes_integer fits endsValue_nil
  rw [List.append_nil] at hread
  rw [Number.reread, hread]

theorem reread_double {d f : Binary64}
    (hf : Numeral.scaled? (Numeral.numeralOf d).digits (Numeral.numeralOf d).exponent = some f) :
    (Number.double d).reread = .double (if d.negative then f.neg else f) := by
  have hread := ofBytes_double hf endsValue_nil
  rw [List.append_nil] at hread
  simp only [Number.reread, Number.text, hread]

/-- A written number is read to its end, as a number that does not depend on what follows. -/
theorem ofBytes_text (n : Number) {rest : Bytes} (h : EndsValue rest) :
    Number.ofBytes (Utf8.encode n.text ++ rest) = .ok (n.reread, rest) := by
  cases n with
  | integer i fits => rw [ofBytes_integer fits h, reread_integer]
  | double d =>
    obtain ⟨f, hf⟩ := Numeral.exists_scaled_numeralOf d
    rw [reread_double hf]
    exact ofBytes_double hf h

/-- What is read as a number begins with a minus sign or a digit. -/
theorem begins_of_ofBytes {input rest : Bytes} {n : Number}
    (h : Number.ofBytes input = .ok (n, rest)) :
    ∃ b after, input = b :: after ∧ (b = 0x2D ∨ isDigit b = true) := by
  unfold Number.ofBytes at h
  cases hnumeral : Numeral.ofBytes input with
  | error s =>
    rw [hnumeral] at h
    cases h
  | ok r =>
    obtain ⟨numeral, behind⟩ := r
    unfold Numeral.ofBytes at hnumeral
    split at hnumeral
    next after => exact ⟨0x2D, after, rfl, .inl rfl⟩
    next =>
      obtain ⟨b, after, rfl, hdigit⟩ := Numeral.begins_of_ofUnsigned hnumeral
      exact ⟨b, after, rfl, .inr hdigit⟩

end RecordBoard.Json
