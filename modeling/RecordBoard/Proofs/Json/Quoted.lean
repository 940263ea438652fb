import RecordBoard.Json.Printer
import RecordBoard.Json.StringReader
import RecordBoard.Proofs.Text.Hex

/-!
# Reading written strings

The reader of strings takes octets, the writer characters.  They agree character by character: the
octets of an escaped character, whatever follows them, are read as the octets of the character.  A
character that is not escaped is written as itself, and none of its octets means anything to the
reader; of the escaped ones seven are written with a letter and the others by their number.

## Main results

* `stringOctets_escapedChar` — an escaped character is read as its octets.
* `stringBody_stringTail` — a written string is read as itself.
-/

namespace RecordBoard.Json

open Utf8 (octets octets_nil octets_append octets_cons_of_lt)

theorem prepend_prepend (front front' : Bytes) (reading : Reading (Bytes × Bytes)) :
    prepend front (prepend front' reading) = prepend (front ++ front') reading := by
  cases reading with
  | error s => rfl
  | ok r => exact congrArg (fun bytes => Except.ok (bytes, r.2)) (List.append_assoc ..).symm

/-! ## Characters that stand for themselves -/

/-- An octet that the reader of strings takes as it is. -/
def IsPlain (b : UInt8) : Prop := b ≠ 0x22 ∧ ¬ b < 0x20 ∧ b ≠ 0x5C

theorem stringOctets_plain {front : Bytes} (h : ∀ b ∈ front, IsPlain b) (rest : Bytes) :
    stringOctets (front ++ rest) = prepend front (stringOctets rest) := by
  induction front with
  | nil =>
    rw [List.nil_append]
    cases stringOctets rest with
    | error s => rfl
    | ok r => rfl
  | cons b front ih =>
    obtain ⟨hquote, hcontrol, hbackslash⟩ := h b List.mem_cons_self
    rw [List.cons_append]
    conv => lhs; unfold stringOctets
    rw [if_neg hquote, if_neg hcontrol, if_pos hbackslash,
      ih fun b' hb' => h b' (List.mem_cons_of_mem b hb'), prepend_prepend, List.singleton_append]

theorem isPlain_octet {n : Nat} (hn : n < 256) (h : 0x20 ≤ n) (hquote : n ≠ 0x22)
    (hbackslash : n ≠ 0x5C) : IsPlain (UInt8.ofNat n) := by
  refine ⟨?_, ?_, ?_⟩
  · exact fun heq => hquote ((Utf8.octet_eq_iff hn 0x22 (by decide)).1 heq)
  · intro hlt
    have := (Utf8.octet_lt_iff hn 0x20 (by decide)).1 hlt
    omega
  · exact fun heq => hbackslash ((Utf8.octet_eq_iff hn 0x5C (by decide)).1 heq)

/-- The octets of a character that is not escaped. -/
theorem isPlain_utf8EncodeChar {c : Char} (h : 0x20 ≤ c.toNat) (hquote : c.toNat ≠ 0x22)
    (hbackslash : c.toNat ≠ 0x5C) : ∀ b ∈ String.utf8EncodeChar c, IsPlain b := by
  intro b hb
  by_cases hsmall : c.toNat < 0x80
  · rw [Utf8.utf8EncodeChar_of_lt hsmall] at hb
    cases List.mem_singleton.1 hb
    exact isPlain_octet (by omega) h hquote hbackslash
  · have hhigh := Utf8.le_of_mem_utf8EncodeChar (Nat.le_of_not_lt hsmall) b hb
    have hplain : IsPlain (UInt8.ofNat b.toNat) := by
      have hbound := b.toNat_lt
      rw [UInt8.le_iff_toNat_le] at hhigh
      simp only [UInt8.reduceToNat] at hhigh
      exact isPlain_octet (by omega) (by omega) (by omega) (by omega)
    rwa [UInt8.ofNat_toNat] at hplain

/-! ## Characters that are escaped -/

theorem stringOctets_letter {letter named : UInt8} (h : letterEscape? letter = some named)
    (rest : Bytes) :
    stringOctets (0x5C :: letter :: rest) = prepend [named] (stringOctets rest) := by
  have hletter : letter ≠ 0x75 := by
    rintro rfl
    cases h
  conv => lhs; unfold stringOctets
  rw [if_neg (by decide), if_neg (by decide), if_neg (by decide)]
  dsimp only
  rw [if_pos hletter, h]

theorem stringOctets_unit {a b c d : UInt8} {unit : Nat} (h : unit? a b c d = some unit)
    (hunit : unit < 0xD800) (rest : Bytes) :
    stringOctets (0x5C :: 0x75 :: a :: b :: c :: d :: rest) =
      prepend (octetsOf unit) (stringOctets rest) := by
  have htrailing : isTrailing unit = false := by
    rw [isTrailing, Bool.and_eq_false_iff, decide_eq_false_iff_not]
    exact .inl (by omega)
  have hleading : isLeading unit = false := by
    rw [isLeading, Bool.and_eq_false_iff, decide_eq_false_iff_not]
    exact .inl (by omega)
  conv => lhs; unfold stringOctets
  rw [if_neg (by decide), if_neg (by decide), if_neg (by decide)]
  dsimp only
  rw [if_neg (by decide), h]
  dsimp only
  rw [htrailing, hleading]
  rfl

/-- An escaped character is read as its octets. -/
theorem stringOctets_escapedChar (c : Char) (rest : Bytes) :
    stringOctets (octets (escapedChar c) ++ rest) =
      prepend (String.utf8EncodeChar c) (stringOctets rest) := by
  unfold escapedChar
  -- seven characters have a letter of their own
  iterate 7
    split
    next h =>
      subst h
      exact stringOctets_letter rfl rest
  split
  next hcontrol =>
    obtain ⟨hhigh, hhigh'⟩ := Hex.value?_digit (c.toNat / 16) (by omega)
    obtain ⟨hlow, hlow'⟩ := Hex.value?_digit (c.toNat % 16) (by omega)
    have hunit : unit? 0x30 0x30 (UInt8.ofNat (Hex.digit (c.toNat / 16)).toNat)
        (UInt8.ofNat (Hex.digit (c.toNat % 16)).toNat) = some c.toNat := by
      have hsum : ((0 * 16 + 0) * 16 + c.toNat / 16) * 16 + c.toNat % 16 = c.toNat := by omega
      unfold unit?
      rw [hhigh, hlow]
      exact congrArg some hsum
    rw [octets_cons_of_lt (by decide), octets_cons_of_lt (by decide), octets_cons_of_lt (by decide),
      octets_cons_of_lt (by decide), octets_cons_of_lt hhigh', octets_cons_of_lt hlow']
    refine (stringOctets_unit hunit (by omega) rest).trans ?_
    rw [octetsOf, Char.ofNat_toNat]
  next hquote hbackslash _ _ _ _ _ hcontrol =>
    rw [octets, List.flatMap_singleton]
    refine stringOctets_plain (isPlain_utf8EncodeChar (by omega) ?_ ?_) rest
    · exact fun heq => hquote (by rw [← Char.ofNat_toNat c, heq])
    · exact fun heq => hbackslash (by rw [← Char.ofNat_toNat c, heq])

/-! ## Whole strings -/

/-- A written string, from behind its opening quote on. -/
def stringTail (s : String) : Bytes := octets (s.toList.flatMap escapedChar) ++ [0x22]

theorem encode_stringText (s : String) : Utf8.encode (stringText s) = 0x22 :: stringTail s := by
  rw [stringText, Utf8.encode_ofList, octets_append, octets_cons_of_lt (by decide)]
  rfl

theorem stringOctets_escaped (chars : List Char) (rest : Bytes) :
    stringOctets (octets (chars.flatMap escapedChar) ++ 0x22 :: rest) =
      .ok (octets chars, rest) := by
  induction chars with
  | nil =>
    rw [List.flatMap_nil, octets_nil, List.nil_append]
    unfold stringOctets
    rw [if_pos rfl]
  | cons c chars ih =>
    rw [List.flatMap_cons, octets_append, List.append_assoc, stringOctets_escapedChar, ih]
    rfl

/-- A written string is read as itself, up to its closing quote. -/
theorem stringBody_stringTail (s : String) (rest : Bytes) :
    stringBody (stringTail s ++ rest) = .ok (s, rest) := by
  have hoctets : stringOctets (stringTail s ++ rest) = .ok (Utf8.encode s, rest) := by
    rw [stringTail, List.append_assoc]
    exact stringOctets_escaped s.toList rest
  unfold stringBody
  simp only [hoctets, bind, Except.bind, Utf8.decode_encode]

end RecordBoard.Json
