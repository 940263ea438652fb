import RecordBoard.Text.Utf8

/-!
# A text is read back from its octets

`Utf8.pieces` looks at octets only, `Utf8.encode` at characters only.  They meet in one fact: the
octets of a character, whatever follows them, are cut off as that character.  A character is
encoded by the size of its number, so the fact has four cases, and in each of them it is arithmetic
on the quotients and remainders by sixty-four.

## Main results

* `pieces_utf8EncodeChar` — the octets of a character are cut off as that character.
* `decode_encode` — a text is read back from its octets.
* `encode_injective` — texts with the same octets are the same.
-/

namespace RecordBoard.Utf8

@[simp] theorem encode_append (s t : String) : encode (s ++ t) = encode s ++ encode t := by
  simp [encode]

/-- The octets of a list of characters. -/
def octets (chars : List Char) : Bytes := chars.flatMap String.utf8EncodeChar

@[simp] theorem octets_nil : octets [] = [] := rfl

@[simp] theorem octets_append (chars chars' : List Char) :
    octets (chars ++ chars') = octets chars ++ octets chars' :=
  List.flatMap_append

/-- A character of ASCII is one octet. -/
theorem utf8EncodeChar_of_lt {c : Char} (h : c.toNat < 0x80) :
    String.utf8EncodeChar c = [UInt8.ofNat c.toNat] := by
  unfold String.utf8EncodeChar
  rw [show c.val.toNat = c.toNat from rfl]
  dsimp only
  rw [if_pos (by omega)]

theorem octets_cons_of_lt {c : Char} (h : c.toNat < 0x80) (chars : List Char) :
    octets (c :: chars) = UInt8.ofNat c.toNat :: octets chars := by
  rw [octets, List.flatMap_cons, utf8EncodeChar_of_lt h]
  rfl

@[simp] theorem encode_ofList (chars : List Char) :
    encode (String.ofList chars) = octets chars := by
  simp [encode, octets]

/-! ## Octets by their numbers -/

theorem toNat_octet {n : Nat} (h : n < 256) : (UInt8.ofNat n).toNat = n := by
  simp
  omega

theorem octet_lt_iff {n : Nat} (hn : n < 256) (m : Nat) (hm : m < 256) :
    UInt8.ofNat n < UInt8.ofNat m ↔ n < m := by
  rw [UInt8.lt_iff_toNat_lt, toNat_octet hn, toNat_octet hm]

theorem octet_le_iff {n : Nat} (hn : n < 256) (m : Nat) (hm : m < 256) :
    UInt8.ofNat m ≤ UInt8.ofNat n ↔ m ≤ n := by
  rw [UInt8.le_iff_toNat_le, toNat_octet hn, toNat_octet hm]

theorem octet_eq_iff {n : Nat} (hn : n < 256) (m : Nat) (hm : m < 256) :
    UInt8.ofNat n = UInt8.ofNat m ↔ n = m := by
  rw [← UInt8.toNat_inj, toNat_octet hn, toNat_octet hm]

/-- An octet that follows the first one, by the six bits that it carries. -/
def tail (n : Nat) : UInt8 := UInt8.ofNat (n % 64 + 0x80)

/-- Which range such an octet lies in. -/
theorem within_tail {n : Nat} (low high : Nat) (hhigh : high < 256) (h : low ≤ n % 64 + 0x80)
    (h' : n % 64 + 0x80 < high) :
    (decide (UInt8.ofNat low ≤ tail n) && decide (tail n < UInt8.ofNat high)) = true := by
  rw [Bool.and_eq_true, decide_eq_true_iff, decide_eq_true_iff]
  exact ⟨(octet_le_iff (by omega) low (by omega)).2 h, (octet_lt_iff (by omega) high hhigh).2 h'⟩

theorem isTail_tail (n : Nat) : isTail (tail n) = true :=
  within_tail 0x80 0xC0 (by decide) (by omega) (by omega)

theorem tailBits_tail (n : Nat) : tailBits (tail n) = n % 64 := by
  unfold tailBits tail
  rw [toNat_octet (by omega)]
  omega

/-- Which second octets a first one admits: four of them narrow the range. -/
theorem isSecond_tail {b n : Nat} (hb : b < 256) (h₀ : b = 0xE0 → 0x20 ≤ n % 64)
    (h₁ : b = 0xED → n % 64 < 0x20) (h₂ : b = 0xF0 → 0x10 ≤ n % 64)
    (h₃ : b = 0xF4 → n % 64 < 0x10) : isSecond (UInt8.ofNat b) (tail n) = true := by
  unfold isSecond
  split
  · have hb' := (octet_eq_iff hb 0xE0 (by decide)).1 ‹_›
    exact within_tail 0xA0 0xC0 (by decide) (by omega) (by omega)
  split
  · have hb' := (octet_eq_iff hb 0xED (by decide)).1 ‹_›
    exact within_tail 0x80 0xA0 (by decide) (by omega) (by omega)
  split
  · have hb' := (octet_eq_iff hb 0xF0 (by decide)).1 ‹_›
    exact within_tail 0x90 0xC0 (by decide) (by omega) (by omega)
  split
  · have hb' := (octet_eq_iff hb 0xF4 (by decide)).1 ‹_›
    exact within_tail 0x80 0x90 (by decide) (by omega) (by omega)
  · exact isTail_tail n

/-! ## One character -/

/-- The number of a character is no surrogate. -/
theorem toNat_valid (c : Char) :
    c.toNat < 0xD800 ∨ (0xDFFF < c.toNat ∧ c.toNat < 0x110000) :=
  c.valid

theorem toNat_ofNat_of_valid {n : Nat} (h : n < 0xD800 ∨ (0xDFFF < n ∧ n < 0x110000)) :
    (Char.ofNat n).toNat = n := by
  rw [Char.ofNat, dif_pos h]
  rfl

private theorem pieces_one {n : Nat} (hn : n < 0x80) (rest : Bytes) :
    pieces (UInt8.ofNat n :: rest) = .char (Char.ofNat n) :: pieces rest := by
  have h : UInt8.ofNat n < 0x80 := (octet_lt_iff (by omega) 0x80 (by decide)).2 hn
  conv => lhs; unfold pieces
  rw [if_pos h, toNat_octet (by omega)]

/-- A first octet of a character of several octets is neither a whole one nor refused. -/
private theorem first_octet {b : Nat} (hb : 0xC2 ≤ b) (hb' : b < 0xF5) :
    ¬ UInt8.ofNat b < 0x80 ∧ ¬ (UInt8.ofNat b < 0xC2 ∨ 0xF5 ≤ UInt8.ofNat b) := by
  refine ⟨?_, ?_⟩
  · intro h
    have := (octet_lt_iff (by omega) 0x80 (by decide)).1 h
    omega
  · rintro (h | h)
    · have := (octet_lt_iff (by omega) 0xC2 (by decide)).1 h
      omega
    · have := (octet_le_iff (by omega) 0xF5 (by decide)).1 h
      omega

private theorem pieces_two {n : Nat} (hn : 0x80 ≤ n) (hn' : n < 0x800) (rest : Bytes) :
    pieces (UInt8.ofNat (n / 64 + 0xC0) :: tail n :: rest) =
      .char (Char.ofNat n) :: pieces rest := by
  obtain ⟨h₁, h₂⟩ := first_octet (b := n / 64 + 0xC0) (by omega) (by omega)
  have h₃ : isSecond (UInt8.ofNat (n / 64 + 0xC0)) (tail n) = true :=
    isSecond_tail (by omega) (by omega) (by omega) (by omega) (by omega)
  have h₄ : UInt8.ofNat (n / 64 + 0xC0) < 0xE0 :=
    (octet_lt_iff (by omega) 0xE0 (by decide)).2 (by omega)
  have hvalue : (n / 64 + 0xC0 - 0xC0) * 64 + n % 64 = n := by omega
  conv => lhs; unfold pieces
  simp only [if_neg h₁, if_neg h₂, h₃, if_pos h₄, Bool.not_true, Bool.false_eq_true, if_false,
    tailBits_tail]
  rw [toNat_octet (by omega), hvalue]

private theorem pieces_three {n : Nat} (hn : 0x800 ≤ n) (hn' : n < 0x10000)
    (hvalid : n < 0xD800 ∨ 0xDFFF < n) (rest : Bytes) :
    pieces (UInt8.ofNat (n / 4096 + 0xE0) :: tail (n / 64) :: tail n :: rest) =
      .char (Char.ofNat n) :: pieces rest := by
  obtain ⟨h₁, h₂⟩ := first_octet (b := n / 4096 + 0xE0) (by omega) (by omega)
  have h₃ : isSecond (UInt8.ofNat (n / 4096 + 0xE0)) (tail (n / 64)) = true :=
    isSecond_tail (by omega) (by omega) (by omega) (by omega) (by omega)
  have h₄ : ¬ UInt8.ofNat (n / 4096 + 0xE0) < 0xE0 := by
    intro h
    have := (octet_lt_iff (by omega) 0xE0 (by decide)).1 h
    omega
  have h₅ : UInt8.ofNat (n / 4096 + 0xE0) < 0xF0 :=
    (octet_lt_iff (by omega) 0xF0 (by decide)).2 (by omega)
  have hvalue : (n / 4096 + 0xE0 - 0xE0) * 4096 + n / 64 % 64 * 64 + n % 64 = n := by omega
  conv => lhs; unfold pieces
  simp only [if_neg h₁, if_neg h₂, h₃, if_neg h₄, if_pos h₅, isTail_tail, Bool.not_true,
    Bool.false_eq_true, if_false, tailBits_tail]
  rw [toNat_octet (by omega), hvalue]

private theorem pieces_four {n : Nat} (hn : 0x10000 ≤ n) (hn' : n < 0x110000) (rest : Bytes) :
    pieces (UInt8.ofNat (n / 262144 + 0xF0) :: tail (n / 4096) :: tail (n / 64) :: tail n :: rest) =
      .char (Char.ofNat n) :: pieces rest := by
  obtain ⟨h₁, h₂⟩ := first_octet (b := n / 262144 + 0xF0) (by omega) (by omega)
  have h₃ : isSecond (UInt8.ofNat (n / 262144 + 0xF0)) (tail (n / 4096)) = true :=
    isSecond_tail (by omega) (by omega) (by omega) (by omega) (by omega)
  have h₄ : ¬ UInt8.ofNat (n / 262144 + 0xF0) < 0xE0 := by
    intro h
    have := (octet_lt_iff (by omega) 0xE0 (by decide)).1 h
    omega
  have h₅ : ¬ UInt8.ofNat (n / 262144 + 0xF0) < 0xF0 := by
    intro h
    have := (octet_lt_iff (by omega) 0xF0 (by decide)).1 h
    omega
  have hvalue : (n / 262144 + 0xF0 - 0xF0) * 262144 + n / 4096 % 64 * 4096 + n / 64 % 64 * 64
      + n % 64 = n := by omega
  conv => lhs; unfold pieces
  simp only [if_neg h₁, if_neg h₂, h₃, if_neg h₄, if_neg h₅, isTail_tail, Bool.not_true,
    Bool.false_eq_true, if_false, tailBits_tail]
  rw [toNat_octet (by omega), hvalue]

/-- The octets of a character, whatever follows them, are cut off as that character. -/
theorem pieces_utf8EncodeChar (c : Char) (rest : Bytes) :
    pieces (String.utf8EncodeChar c ++ rest) = .char c :: pieces rest := by
  have hvalid := toNat_valid c
  unfold String.utf8EncodeChar
  rw [show c.val.toNat = c.toNat from rfl]
  dsimp only
  split
  · rename_i h
    rw [List.singleton_append, pieces_one (by omega), Char.ofNat_toNat]
  split
  · rename_i h₁ h
    have hfirst : c.toNat / 64 % 0x20 = c.toNat / 64 := by omega
    rw [hfirst]
    exact (pieces_two (by omega) (by omega) rest).trans (by rw [Char.ofNat_toNat])
  split
  · rename_i h₁ h₂ h
    have hfirst : c.toNat / 4096 % 0x10 = c.toNat / 4096 := by omega
    rw [hfirst]
    exact (pieces_three (by omega) (by omega) (by omega) rest).trans (by rw [Char.ofNat_toNat])
  · rename_i h₁ h₂ h
    have hfirst : c.toNat / 262144 % 0x08 = c.toNat / 262144 := by omega
    rw [hfirst]
    exact (pieces_four (by omega) (by omega) rest).trans (by rw [Char.ofNat_toNat])

/-- A character beyond ASCII has octets beyond ASCII only. -/
theorem le_of_mem_utf8EncodeChar {c : Char} (h : 0x80 ≤ c.toNat) :
    ∀ b ∈ String.utf8EncodeChar c, 0x80 ≤ b := by
  have hoctet : ∀ n : Nat, n < 256 → 0x80 ≤ n → (0x80 : UInt8) ≤ UInt8.ofNat n := fun n hn hlow =>
    (octet_le_iff hn 0x80 (by decide)).2 hlow
  intro b hb
  unfold String.utf8EncodeChar at hb
  rw [show c.val.toNat = c.toNat from rfl] at hb
  dsimp only at hb
  split at hb
  · omega
  split at hb
  · simp only [List.mem_cons, List.not_mem_nil, or_false] at hb
    rcases hb with rfl | rfl <;> exact hoctet _ (by omega) (by omega)
  split at hb
  · simp only [List.mem_cons, List.not_mem_nil, or_false] at hb
    rcases hb with rfl | rfl | rfl <;> exact hoctet _ (by omega) (by omega)
  · simp only [List.mem_cons, List.not_mem_nil, or_false] at hb
    rcases hb with rfl | rfl | rfl | rfl <;> exact hoctet _ (by omega) (by omega)

/-! ## Whole texts -/

theorem pieces_flatMap_utf8EncodeChar (chars : List Char) :
    pieces (chars.flatMap String.utf8EncodeChar) = chars.map .char := by
  induction chars with
  | nil => rfl
  | cons c rest ih => rw [List.flatMap_cons, pieces_utf8EncodeChar, ih, List.map_cons]

theorem characters_map_char (index : Nat) (chars : List Char) :
    characters index (chars.map .char) = .ok chars := by
  induction chars generalizing index with
  | nil => rfl
  | cons c rest ih => rw [List.map_cons, characters, ih]; rfl

/-- A text is read back from its octets. -/
@[simp] theorem decode_encode (s : String) : decode (encode s) = .ok s := by
  rw [decode, encode, pieces_flatMap_utf8EncodeChar, characters_map_char]
  exact congrArg Except.ok String.ofList_toList

/-- Texts with the same octets are the same. -/
theorem encode_injective {s t : String} (h : encode s = encode t) : s = t := by
  have hdecode := congrArg decode h
  rw [decode_encode, decode_encode] at hdecode
  exact Except.ok.inj hdecode

/-- So it is by the reading that replaces what it cannot read. -/
theorem decodeLossy_octets (chars : List Char) :
    decodeLossy (octets chars) = String.ofList chars := by
  rw [decodeLossy, octets, pieces_flatMap_utf8EncodeChar, List.map_map]
  exact congrArg String.ofList (List.map_id chars)

/-! ## No octets, no text -/

theorem pieces_ne_nil {bytes : Bytes} (h : bytes ≠ []) : pieces bytes ≠ [] := by
  cases bytes with
  | nil => exact absurd rfl h
  | cons b rest =>
    unfold pieces
    repeat' first | exact List.cons_ne_nil _ _ | split

/-- The empty text is spelled by no octets only. -/
theorem eq_nil_of_decode {bytes : Bytes} (h : decode bytes = .ok "") : bytes = [] := by
  refine Decidable.byContradiction fun hne => ?_
  have hpieces := pieces_ne_nil hne
  unfold decode at h
  cases hcut : pieces bytes with
  | nil => exact hpieces hcut
  | cons piece rest =>
    rw [hcut] at h
    cases piece with
    | char c =>
      rw [characters] at h
      cases hrest : characters (0 + c.utf8Size) rest with
      | error f =>
        rw [hrest] at h
        cases h
      | ok chars =>
        rw [hrest] at h
        have hchars := congrArg String.toList (Except.ok.inj h)
        rw [String.toList_ofList] at hchars
        cases hchars
    | refused length => cases h
    | cutOff => cases h

end RecordBoard.Utf8
