import Mathlib.Data.List.Induction
import RecordBoard.Proofs.Text.Blank
import RecordBoard.Settings

/-!
# How many records a page holds

Whoever asks for a page may say how many records it is to hold.  What is said counts if it is a
number that fits a word, in decimal digits, white space aside; anything else counts as if nothing
had been said.  Then the number is brought within bounds. This breaks down where there is no room
between them, which the check of settings rules out.

## Main definitions

* `SpellsDigits`, `SpellsWord` — digits that spell a number, and a text that spells a word.

## Main results

* `wordOfText?_trim_eq_some_iff` — a text is read as the word that it spells.
* `Limits.exists_pageSize?` — if the bounds pass their check there is a page size, and which one it
  is.
-/

namespace RecordBoard

/-! ## Numbers in decimal digits -/

/-- A decimal digit. -/
def IsDigit (c : Char) : Prop := '0' ≤ c ∧ c ≤ '9'

/-- Decimal digits spell a number. -/
inductive SpellsDigits : List Char → Nat → Prop
  /-- A digit alone spells its value. -/
  | one {c : Char} (h : IsDigit c) : SpellsDigits [c] (c.toNat - '0'.toNat)
  /-- One more digit makes ten times as much, and its value. -/
  | more {front : List Char} {n : Nat} (hfront : SpellsDigits front n) {c : Char} (h : IsDigit c) :
      SpellsDigits (front ++ [c]) (n * 10 + (c.toNat - '0'.toNat))

theorem SpellsDigits.isDigit {digits : List Char} {n : Nat} (h : SpellsDigits digits n) :
    ∀ c ∈ digits, IsDigit c := by
  induction h with
  | one hc => exact List.forall_mem_singleton.2 hc
  | more _ hc ih => exact List.forall_mem_append.2 ⟨ih, List.forall_mem_singleton.2 hc⟩

/-- The value of digits, taken one after the other. -/
def digitsValue (digits : List Char) : Nat :=
  digits.foldl (fun n c => n * 10 + (c.toNat - '0'.toNat)) 0

/-- Digits spell their value, and only that. -/
theorem spellsDigits_iff {digits : List Char} {n : Nat} :
    SpellsDigits digits n ↔ digits ≠ [] ∧ (∀ c ∈ digits, IsDigit c) ∧ digitsValue digits = n := by
  constructor
  · intro h
    refine ⟨?_, h.isDigit, ?_⟩
    · cases h <;> simp
    · induction h with
      | one => simp [digitsValue]
      | more _ _ ih => rw [digitsValue, List.foldl_append, ← digitsValue, ih]; rfl
  · rintro ⟨hsome, hdigits, rfl⟩
    induction digits using List.reverseRecOn with
    | nil => exact absurd rfl hsome
    | append_singleton front c ih =>
      obtain ⟨hfront, hc⟩ := List.forall_mem_append.1 hdigits
      have hc := hc c List.mem_cons_self
      rw [digitsValue, List.foldl_append, ← digitsValue]
      cases front with
      | nil =>
        have hone := SpellsDigits.one hc
        rwa [← Nat.zero_add (c.toNat - '0'.toNat), ← Nat.zero_mul 10] at hone
      | cons d rest => exact .more (ih (by simp) hfront) hc

/-! ## Words -/

/-- A text spells a word: white space, a plus sign or none, decimal digits, and white space. -/
structure SpellsWord (text : String) (n : Nat) : Prop where
  /-- It is made of these. -/
  parts : ∃ before sign digits after, text.toList = before ++ (sign ++ digits) ++ after ∧
    (∀ c ∈ before, Text.isBlank c = true) ∧ (sign = [] ∨ sign = ['+']) ∧ SpellsDigits digits n ∧
    ∀ c ∈ after, Text.isBlank c = true
  /-- The number fits a word. -/
  fits : n < UInt64.size

theorem isDigit_iff {c : Char} : IsDigit c ↔ 48 ≤ c.toNat ∧ c.toNat ≤ 57 := Iff.rfl

theorem not_isBlank_of_isDigit {c : Char} (h : IsDigit c) : Text.isBlank c = false := by
  obtain ⟨hlow, hhigh⟩ := isDigit_iff.1 h
  rw [← Bool.not_eq_true]
  simp only [Text.isBlank, Text.inRanges, Text.blankRanges, List.any_cons, List.any_nil,
    Bool.or_eq_true, Bool.and_eq_true, decide_eq_true_iff, Bool.false_eq_true, or_false]
  omega

/-- Digits are read as the number that they spell, if it fits a word. -/
theorem wordOfDigits_eq_some_iff {digits : List Char} {n : Nat} :
    (if digits ≠ [] ∧ digits.all (fun c => '0' ≤ c && c ≤ '9') ∧
      digitsValue digits < UInt64.size then
      some (digitsValue digits) else none) = some n ↔ SpellsDigits digits n ∧ n < UInt64.size := by
  have hall : digits.all (fun c => '0' ≤ c && c ≤ '9') = true ↔ ∀ c ∈ digits, IsDigit c := by
    simp only [List.all_eq_true, Bool.and_eq_true, decide_eq_true_iff]
    exact Iff.rfl
  rw [spellsDigits_iff, ← hall]
  constructor
  · intro h
    split at h
    next hword =>
      obtain ⟨hsome, hdigits, hfits⟩ := hword
      cases h
      exact ⟨⟨hsome, hdigits, rfl⟩, hfits⟩
    next => cases h
  · rintro ⟨⟨hsome, hdigits, rfl⟩, hfits⟩
    exact if_pos ⟨hsome, hdigits, hfits⟩

/-- A plus sign is passed over. -/
theorem wordOfText?_of_plus {digits : List Char} {n : Nat} :
    wordOfText? (String.ofList ('+' :: digits)) = some n ↔ SpellsDigits digits n ∧
    n < UInt64.size := by
  rw [← wordOfDigits_eq_some_iff, wordOfText?, String.toList_ofList]
  exact Iff.rfl

/-- What does not begin with one is digits, or is none. -/
theorem wordOfText?_of_no_plus {digits : List Char} (h : digits.head? ≠ some '+') {n : Nat} :
    wordOfText? (String.ofList digits) = some n ↔ SpellsDigits digits n ∧ n < UInt64.size := by
  rw [← wordOfDigits_eq_some_iff, wordOfText?, String.toList_ofList]
  split
  next => exact absurd rfl h
  next => exact Iff.rfl

theorem wordOfText?_eq_some_iff {chars : List Char} {n : Nat} :
    wordOfText? (String.ofList chars) = some n ↔
      ∃ sign digits, chars = sign ++ digits ∧ (sign = [] ∨ sign = ['+']) ∧ SpellsDigits digits n ∧
      n < UInt64.size := by
  constructor
  · intro h
    by_cases hplus : chars.head? = some '+'
    · obtain ⟨digits, rfl⟩ := List.head?_eq_some_iff.1 hplus
      exact ⟨['+'], digits, rfl, .inr rfl, wordOfText?_of_plus.1 h⟩
    · exact ⟨[], chars, rfl, .inl rfl, (wordOfText?_of_no_plus hplus).1 h⟩
  · rintro ⟨sign, digits, rfl, rfl | rfl, hdigits⟩
    · refine (wordOfText?_of_no_plus fun hplus => ?_).2 hdigits
      have hdigit := hdigits.1.isDigit '+' (List.mem_of_head? hplus)
      exact absurd hdigit.1 (by decide)
    · exact wordOfText?_of_plus.2 hdigits

/-- A text is read as the word that it spells. -/
theorem wordOfText?_trim_eq_some_iff {text : String} {n : Nat} :
    wordOfText? (Text.trim text) = some n ↔ SpellsWord text n := by
  rw [Text.trim, wordOfText?_eq_some_iff]
  constructor
  · rintro ⟨sign, digits, hchars, hsign, hdigits, hfits⟩
    obtain ⟨before, after, htext, hbefore, hafter⟩ := Text.exists_blank_around text.toList
    rw [hchars] at htext
    exact ⟨⟨before, sign, digits, after, htext, hbefore, hsign, hdigits, hafter⟩, hfits⟩
  · rintro ⟨⟨before, sign, digits, after, htext, hbefore, hsign, hdigits, hafter⟩, hfits⟩
    refine ⟨sign, digits, ?_, hsign, hdigits, hfits⟩
    rw [htext]
    refine Text.trimChars_of_blank_around hbefore hafter (List.forall_mem_append.2 ⟨?_, ?_⟩)
    · rcases hsign with rfl | rfl
      · exact fun c hc => absurd hc List.not_mem_nil
      · exact List.forall_mem_singleton.2 (by decide)
    · exact fun c hc => not_isBlank_of_isDigit (hdigits.isDigit c hc)

/-! ## Page sizes -/

/-- The number that somebody who asks for a page size asks for. -/
inductive AsksForSize : Option String → Nat → Prop
  /-- The text spells it. -/
  | spelt {text : String} {n : Nat} (h : SpellsWord text n) : AsksForSize (some text) n

theorem bind_wordOfText?_eq_some_iff {asked : Option String} {n : Nat} :
    (asked.bind fun text => wordOfText? (Text.trim text)) = some n ↔ AsksForSize asked n := by
  cases asked with
  | none =>
    refine iff_of_false (fun h => ?_) (fun h => ?_)
    · cases h
    · cases h
  | some text =>
    rw [Option.bind_some, wordOfText?_trim_eq_some_iff]
    constructor
    · exact .spelt
    · rintro ⟨h⟩
      exact h

/-- The bounds of settings that pass their check pass theirs. -/
theorem Settings.checkLimits_of_check {s : Settings} (h : s.check = .ok ()) :
    Settings.checkLimits s.limits = .ok () := by
  unfold Settings.check at h
  split at h
  · cases h
  split at h
  · cases h
  split at h
  · cases h
  · exact h

namespace Limits

variable {limits : Limits} (h : Settings.checkLimits limits = .ok ())

include h

/-- Bounds that pass their check leave room for a page, and a page that nobody asked for is within
them. -/
theorem bounds_of_check : 1 ≤ limits.defaultPage ∧ limits.defaultPage ≤ limits.largestPage := by
  unfold Settings.checkLimits at h
  split at h
  · cases h
  split at h
  · cases h
  · omega

/-- If the bounds pass their check there is a page size, within them, whatever is asked for. -/
theorem exists_pageSize? (asked : Option String) :
    ∃ size, limits.pageSize? asked = some size ∧ 1 ≤ size ∧ size ≤ limits.largestPage ∧
      (∀ n, AsksForSize asked n → size = min (max n 1) limits.largestPage) ∧
      ((∀ n, ¬ AsksForSize asked n) → size = limits.defaultPage) := by
  obtain ⟨hpos, hle⟩ := bounds_of_check h
  unfold pageSize?
  dsimp only
  rw [if_neg (by omega)]
  refine ⟨_, rfl, by omega, by omega, fun n hasks => ?_, fun hnone => ?_⟩
  · rw [bind_wordOfText?_eq_some_iff.2 hasks, Option.getD_some]
  · have hunread : (asked.bind fun text => wordOfText? (Text.trim text)) = none :=
      Option.eq_none_iff_forall_ne_some.2 fun n hread =>
        hnone n (bind_wordOfText?_eq_some_iff.1 hread)
    rw [hunread, Option.getD_none]
    omega

end Limits

end RecordBoard
