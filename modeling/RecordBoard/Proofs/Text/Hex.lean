import RecordBoard.Proofs.Text.Utf8
import RecordBoard.Text.Hex

/-!
# Digits read back

An octet is written with two digits, and two digits spell an octet, so octets are read back from
their digits.  The digits are characters of one octet each, and none of them means anything in a
query.

## Main definitions

* `Writes` — a text writes octets with two lower-case digits each.

## Main results

* `decode_encode` — octets are read back from their digits.
* `mem_digits_of_mem_encode` — which characters are digits.
* `writes_encode` — the text of octets writes them.
-/

namespace RecordBoard.Hex

open Utf8 (octets octets_nil octets_append octets_cons_of_lt)

theorem value?_digit : ∀ k < 16, value? (UInt8.ofNat (digit k).toNat) = some k ∧
    (digit k).toNat < 0x80 := by
  decide

/-- The digits of an octet, as octets. -/
theorem octets_digits (b : UInt8) :
    octets (digits b) =
      [UInt8.ofNat (digit (b.toNat / 16)).toNat, UInt8.ofNat (digit (b.toNat % 16)).toNat] := by
  have hb := b.toNat_lt
  obtain ⟨-, hhigh⟩ := value?_digit (b.toNat / 16) (by omega)
  obtain ⟨-, hlow⟩ := value?_digit (b.toNat % 16) (by omega)
  rw [digits, octets_cons_of_lt hhigh, octets_cons_of_lt hlow, octets_nil]

theorem length_octets_digits (bytes : Bytes) :
    (octets (bytes.flatMap digits)).length = 2 * bytes.length := by
  induction bytes with
  | nil => rfl
  | cons b rest ih =>
    rw [List.flatMap_cons, octets_append, List.length_append, ih, octets_digits]
    simp only [List.length_cons, List.length_nil]
    omega

theorem pairs_octets_digits (position : Nat) (bytes : Bytes) :
    pairs position (octets (bytes.flatMap digits)) = .ok bytes := by
  induction bytes generalizing position with
  | nil => rfl
  | cons b rest ih =>
    have hb := b.toNat_lt
    obtain ⟨hhigh, -⟩ := value?_digit (b.toNat / 16) (by omega)
    obtain ⟨hlow, -⟩ := value?_digit (b.toNat % 16) (by omega)
    have hwhole : b.toNat / 16 * 16 + b.toNat % 16 = b.toNat := by omega
    rw [List.flatMap_cons, octets_append, octets_digits, List.cons_append, List.singleton_append,
      pairs, hhigh, hlow]
    dsimp only
    rw [ih, hwhole, UInt8.ofNat_toNat]
    rfl

/-- Octets are read back from their digits. -/
theorem decode_encode (bytes : Bytes) : decode (Utf8.encode (encode bytes)) = .ok bytes := by
  rw [decode, encode, Utf8.encode_ofList, length_octets_digits, if_neg (by omega),
    pairs_octets_digits]

theorem digit_mem : ∀ k < 16, digit k ∈ "0123456789abcdef".toList := by
  decide

/-- Which characters are digits. -/
theorem mem_digits_of_mem_encode {bytes : Bytes} {c : Char} (h : c ∈ (encode bytes).toList) :
    c ∈ "0123456789abcdef".toList := by
  rw [encode, String.toList_ofList] at h
  obtain ⟨b, -, hc⟩ := List.mem_flatMap.1 h
  have hb := b.toNat_lt
  simp only [digits, List.mem_cons, List.not_mem_nil, or_false] at hc
  rcases hc with rfl | rfl
  · exact digit_mem _ (by omega)
  · exact digit_mem _ (by omega)

/-- A text writes octets with two lower-case digits each. -/
structure Writes (text : String) (bytes : Bytes) : Prop where
  /-- There are twice as many digits as octets. -/
  length : text.length = 2 * bytes.length
  /-- They are digits in lower case. -/
  digits : ∀ c ∈ text.toList, c ∈ "0123456789abcdef".toList
  /-- The octets are read back from them. -/
  spelled : decode (Utf8.encode text) = .ok bytes

theorem length_flatMap_digits (bytes : Bytes) :
    (bytes.flatMap digits).length = 2 * bytes.length := by
  induction bytes with
  | nil => rfl
  | cons b rest ih =>
    rw [List.flatMap_cons, List.length_append, ih, List.length_cons, Nat.mul_succ, Nat.add_comm]
    rfl

/-- The text of octets writes them. -/
theorem writes_encode (bytes : Bytes) : Writes (encode bytes) bytes where
  length := by rw [encode, String.length_ofList, length_flatMap_digits]
  digits _ := mem_digits_of_mem_encode
  spelled := decode_encode bytes

end RecordBoard.Hex
