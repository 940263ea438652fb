import RecordBoard.Http.Header
import RecordBoard.Proofs.Text.Hex
import RecordBoard.Proofs.Text.Malformed

/-!
# Which texts are digits

Digits are read octet by octet, and a text comes character by character.  The two go together
because every digit is a single octet and no other character has one of these octets, so that a text
of digits can be told either way.  Such a text, if its digits pair up, spells octets, and in lower
case it is what those are written as.

In any other text of an even length the first octet that is no digit is found, wherever it stands
within a pair.

## Main definitions

* `alphabet` — the digits, in either case.
* `Spells` — a text is what octets are written as, but for case.

## Main results

* `forall_mem_alphabet_iff` — a text is of digits if all its octets are.
* `exists_spells` — digits that pair up are read as the octets that they spell.
* `decode_of_notDigit` — the first octet that is no digit is found.
-/

namespace RecordBoard.Hex

open Utf8 (octets octets_nil octets_cons_of_lt)

/-- The digits, in either case. -/
def alphabet : String := "0123456789abcdefABCDEF"

/-- A text is what octets are written as, but for case. -/
def Spells (text : String) (bytes : Bytes) : Prop := Http.lowerCase text = encode bytes

/-! ## Digits, as characters and as octets -/

theorem all_digits_alphabet :
    alphabet.toList.all (fun c => c.toNat < 0x80 &&
      (value? (UInt8.ofNat c.toNat)).any fun x => x < 16 && c.toLower == digit x) = true := by
  decide

/-- A digit is a single octet, which stands for a number, and in lower case it is the digit of that
number. -/
theorem value?_of_mem_alphabet {c : Char} (h : c ∈ alphabet.toList) :
    c.toNat < 0x80 ∧ ∃ x < 16, value? (UInt8.ofNat c.toNat) = some x ∧ c.toLower = digit x := by
  have hdigit := List.all_eq_true.1 all_digits_alphabet c h
  simp only [Bool.and_eq_true, decide_eq_true_eq, Option.any_eq_true, beq_iff_eq] at hdigit
  obtain ⟨hsingle, x, hvalue, hx, hlower⟩ := hdigit
  exact ⟨hsingle, x, hx, hvalue, hlower⟩

theorem isSome_value?_iff_of_lt :
    ∀ n < 256, (value? (UInt8.ofNat n)).isSome = true ↔ UInt8.ofNat n ∈ Utf8.encode alphabet := by
  decide +kernel

/-- The octets that stand for a number are those of the digits. -/
theorem isSome_value?_iff {b : UInt8} : (value? b).isSome = true ↔ b ∈ Utf8.encode alphabet := by
  have hb := isSome_value?_iff_of_lt b.toNat b.toNat_lt
  rwa [UInt8.ofNat_toNat] at hb

theorem all_chars_alphabet :
    (Utf8.encode alphabet).all
      (fun b => b.toNat < 0x80 && alphabet.toList.contains (Char.ofNat b.toNat)) = true := by
  decide

theorem char_of_mem_alphabet {b : UInt8} (h : b ∈ Utf8.encode alphabet) :
    b.toNat < 0x80 ∧ Char.ofNat b.toNat ∈ alphabet.toList := by
  have hchar := List.all_eq_true.1 all_chars_alphabet b h
  simpa only [Bool.and_eq_true, decide_eq_true_eq, List.contains_iff_mem] using hchar

/-- No other character has the octets of a digit. -/
theorem mem_alphabet_of_octets {c : Char}
    (h : ∀ b ∈ String.utf8EncodeChar c, b ∈ Utf8.encode alphabet) :
    c ∈ alphabet.toList := by
  obtain ⟨b, rest, hoctets⟩ := List.exists_cons_of_ne_nil (String.utf8EncodeChar_ne_nil (c := c))
  rw [hoctets] at h
  obtain ⟨hsingle, hmem⟩ := char_of_mem_alphabet (h b List.mem_cons_self)
  have hsame : Char.ofNat b.toNat = c := by
    apply Utf8.eq_of_isPrefix
    rw [hoctets, Utf8.utf8EncodeChar_one hsingle]
    exact ⟨rest, rfl⟩
  rwa [← hsame]

/-- A text is of digits if all its octets are. -/
theorem forall_mem_alphabet_iff {text : String} :
    (∀ c ∈ text.toList, c ∈ alphabet.toList) ↔
      ∀ b ∈ Utf8.encode text, b ∈ Utf8.encode alphabet := by
  unfold Utf8.encode
  constructor
  · intro h b hb
    obtain ⟨c, hc, hb⟩ := List.mem_flatMap.1 hb
    exact List.mem_flatMap.2 ⟨c, h c hc, hb⟩
  · intro h c hc
    apply mem_alphabet_of_octets
    intro b hb
    exact h b (List.mem_flatMap.2 ⟨c, hc, hb⟩)

/-! ## Pairs -/

theorem length_octets {chars : List Char} (h : ∀ c ∈ chars, c ∈ alphabet.toList) :
    (octets chars).length = chars.length := by
  induction chars with
  | nil => rfl
  | cons c chars ih =>
    obtain ⟨hsingle, -⟩ := value?_of_mem_alphabet (h c List.mem_cons_self)
    rw [octets_cons_of_lt hsingle, List.length_cons, List.length_cons, ih]
    intro c hc
    exact h c (List.mem_cons_of_mem _ hc)

/-- Digits that pair up are read as octets, and are in lower case what those are written as. -/
theorem pairs_of_digits :
    ∀ (chars : List Char) (position : Nat), (∀ c ∈ chars, c ∈ alphabet.toList) →
    chars.length % 2 = 0 →
      ∃ bytes, pairs position (octets chars) = .ok bytes ∧
      chars.map Char.toLower = bytes.flatMap digits
  | [], _, _, _ => ⟨[], rfl, rfl⟩
  | [_], _, _, heven => by cases heven
  | a :: c :: chars, position, hdigits, heven => by
    obtain ⟨ha, hdigits⟩ := List.forall_mem_cons.1 hdigits
    obtain ⟨hc, hdigits⟩ := List.forall_mem_cons.1 hdigits
    obtain ⟨ha, x, hx, hhigh, hlower⟩ := value?_of_mem_alphabet ha
    obtain ⟨hc, y, hy, hlow, hlower'⟩ := value?_of_mem_alphabet hc
    have hrest : chars.length % 2 = 0 := by
      simp only [List.length_cons] at heven
      omega
    obtain ⟨bytes, hpairs, hwritten⟩ := pairs_of_digits chars (position + 2) hdigits hrest
    refine ⟨UInt8.ofNat (x * 16 + y) :: bytes, ?_, ?_⟩
    · rw [octets_cons_of_lt ha, octets_cons_of_lt hc, pairs, hhigh, hlow]
      dsimp only
      rw [hpairs]
      rfl
    · have hupper : (UInt8.ofNat (x * 16 + y)).toNat = x * 16 + y := Utf8.toNat_octet (by omega)
      have hx' : (x * 16 + y) / 16 = x := by omega
      have hy' : (x * 16 + y) % 16 = y := by omega
      rw [List.map_cons, List.map_cons, List.flatMap_cons, digits, hupper, hx', hy', hwritten,
        hlower, hlower']
      rfl

/-- Digits that pair up are read as the octets that they spell. -/
theorem exists_spells {text : String} (heven : (Utf8.encode text).length % 2 = 0)
    (hdigits : ∀ c ∈ text.toList, c ∈ alphabet.toList) :
    ∃ bytes, decode (Utf8.encode text) = .ok bytes ∧ Spells text bytes := by
  have hlength : text.toList.length % 2 = 0 := by
    rwa [← Utf8.octets_toList, length_octets hdigits] at heven
  obtain ⟨bytes, hpairs, hwritten⟩ := pairs_of_digits text.toList 0 hdigits hlength
  refine ⟨bytes, ?_, ?_⟩
  · rw [decode, if_neg (by omega)]
    exact hpairs
  · rw [Spells, Http.lowerCase, hwritten]
    rfl

theorem Spells.unique {text : String} {bytes bytes' : Bytes} (h : Spells text bytes)
    (h' : Spells text bytes') :
    bytes = bytes' := by
  have hdecode := decode_encode bytes
  rw [h.symm.trans h', decode_encode] at hdecode
  exact (Except.ok.inj hdecode).symm

/-! ## Octets that are no digits -/

theorem value?_eq_none {b : UInt8} (h : b ∉ Utf8.encode alphabet) : value? b = none := by
  rwa [← isSome_value?_iff, Bool.not_eq_true, Option.isSome_eq_false_iff,
    Option.isNone_iff_eq_none] at h

theorem exists_value? {b : UInt8} (h : b ∈ Utf8.encode alphabet) : ∃ x, value? b = some x :=
  Option.isSome_iff_exists.1 (isSome_value?_iff.2 h)

/-- The first octet that is no digit is found, wherever it stands within a pair. -/
theorem pairs_of_notDigit {octet : UInt8} (hoctet : octet ∉ Utf8.encode alphabet) :
    ∀ (front back : Bytes) (position : Nat), (∀ b ∈ front, b ∈ Utf8.encode alphabet) →
      (front ++ octet :: back).length % 2 = 0 →
        pairs position (front ++ octet :: back) = .error (.notDigit octet (position + front.length))
  | [], [], _, _, heven => by cases heven
  | [], _ :: _, _, _, _ => by
    rw [List.nil_append, pairs, value?_eq_none hoctet]
    rfl
  | [a], back, _, hfront, _ => by
    obtain ⟨x, hx⟩ := exists_value? (hfront a List.mem_cons_self)
    rw [List.singleton_append, pairs, hx, value?_eq_none hoctet]
    rfl
  | a :: b :: front, back, position, hfront, heven => by
    obtain ⟨ha, hfront⟩ := List.forall_mem_cons.1 hfront
    obtain ⟨hb, hfront⟩ := List.forall_mem_cons.1 hfront
    obtain ⟨x, hx⟩ := exists_value? ha
    obtain ⟨y, hy⟩ := exists_value? hb
    have hrest : (front ++ octet :: back).length % 2 = 0 := by
      simp only [List.cons_append, List.length_cons] at heven
      omega
    have hfound := pairs_of_notDigit hoctet front back (position + 2) hfront hrest
    have hposition : position + 2 + front.length = position + (a :: b :: front).length := by
      simp only [List.length_cons]
      omega
    rw [List.cons_append, List.cons_append, pairs, hx, hy]
    dsimp only
    rw [hfound, hposition]
    rfl

/-- So it is in a text of an even length. -/
theorem decode_of_notDigit {bytes front back : Bytes} {octet : UInt8} (heven : bytes.length % 2 = 0)
    (hbytes : bytes = front ++ octet :: back) (hfront : ∀ b ∈ front, b ∈ Utf8.encode alphabet)
    (hoctet : octet ∉ Utf8.encode alphabet) :
    decode bytes = .error (.notDigit octet front.length) := by
  rw [decode, if_neg (by omega)]
  rw [hbytes] at heven ⊢
  rw [pairs_of_notDigit hoctet front back 0 hfront heven, Nat.zero_add]

theorem decode_of_odd {bytes : Bytes} (h : bytes.length % 2 = 1) :
    decode bytes = .error .oddLength := by
  rw [decode, if_pos h]

/-- Octets are digits, or a first one is none. -/
theorem digits_or_first (bytes : Bytes) :
    (∀ b ∈ bytes, b ∈ Utf8.encode alphabet) ∨
      ∃ front octet back, bytes = front ++ octet :: back ∧ (∀ b ∈ front, b ∈ Utf8.encode alphabet) ∧
        octet ∉ Utf8.encode alphabet := by
  induction bytes with
  | nil =>
    left
    intro b hb
    cases hb
  | cons b bytes ih =>
    by_cases hb : b ∈ Utf8.encode alphabet
    · rcases ih with hall | ⟨front, octet, back, hbytes, hfront, hoctet⟩
      · exact .inl (List.forall_mem_cons.2 ⟨hb, hall⟩)
      · right
        refine ⟨b :: front, octet, back, ?_, List.forall_mem_cons.2 ⟨hb, hfront⟩, hoctet⟩
        rw [hbytes, List.cons_append]
    · right
      refine ⟨[], b, bytes, rfl, ?_, hb⟩
      intro b hb
      cases hb

end RecordBoard.Hex
