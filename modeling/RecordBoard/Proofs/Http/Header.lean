import RecordBoard.Http.Header
import RecordBoard.Proofs.Text.Utf8

/-!
# What the headers say under a name

Of the headers with one name only the first counts, and its value counts only if all its octets are
tabs, spaces or visible characters.  Each of these octets is a character of its own, so such a value
is the octets of one text, and to say that the headers have this text under the name is to say what
the value is.

Case does not count in a name, so it makes no difference whether a name that is looked for is in
lower case.

## Main definitions

* `Headers.Says` — the first value under a name is the octets of a text.
* `IsName` — what a header can have as its name.

## Main results

* `Headers.text?_eq_some_iff` — the text that is found under a name is the one that the headers say.
* `headerName?_eq_some_iff` — a text is taken as a name if it can be one.
-/

namespace RecordBoard.Http

open Utf8 (octets octets_cons_of_lt)

/-! ## Case -/

/-- A capital of ASCII becomes the letter thirty-two places on; any other character stays. -/
theorem toLower_eq_or (c : Char) :
    c.toLower = c ∨
    ('A'.toNat ≤ c.toNat ∧ c.toNat ≤ 'Z'.toNat ∧ c.toLower.toNat = c.toNat + 32) := by
  by_cases h : c.val ≥ 'A'.val ∧ c.val ≤ 'Z'.val
  · right
    have hlower : c.toLower.val = c.val + 32 := congrArg Char.val (dif_pos h)
    simp only [ge_iff_le, UInt32.le_iff_toNat_le] at h
    refine ⟨h.1, h.2, ?_⟩
    have hnumber : c.toLower.toNat = (c.val + 32).toNat := congrArg UInt32.toNat hlower
    simp only [Char.reduceVal, UInt32.reduceToNat] at h
    rw [hnumber, UInt32.toNat_add]
    show (c.toNat + 32) % 2 ^ 32 = c.toNat + 32
    have hsmall : c.toNat ≤ 90 := h.2
    omega
  · exact .inl (dif_neg h)

theorem toLower_toLower (c : Char) : c.toLower.toLower = c.toLower := by
  rcases toLower_eq_or c with hsame | ⟨hlow, hhigh, hlower⟩
  · rw [hsame, hsame]
  · rcases toLower_eq_or c.toLower with hsame | ⟨-, hcapital, -⟩
    · exact hsame
    · -- No small letter is a capital.
      have hA : 'A'.toNat = 65 := rfl
      have hZ : 'Z'.toNat = 90 := rfl
      omega

theorem lowerCase_lowerCase (s : String) : lowerCase (lowerCase s) = lowerCase s := by
  simp only [lowerCase, String.toList_ofList, List.map_map]
  congr 1
  apply List.map_congr_left
  intro c _
  exact toLower_toLower c

theorem sameButCase_iff {a b : String} : sameButCase a b = true ↔ lowerCase a = lowerCase b := by
  rw [sameButCase, beq_iff_eq]

/-! ## Values -/

theorem isVisible_iff {b : UInt8} : isVisible b = true ↔ b = 0x09 ∨ (0x20 ≤ b ∧ b ≤ 0x7E) := by
  simp [isVisible]

theorem toNat_of_isVisible {b : UInt8} (h : isVisible b = true) : b.toNat < 0x80 := by
  rw [isVisible_iff, ← UInt8.toNat_inj, UInt8.le_iff_toNat_le, UInt8.le_iff_toNat_le] at h
  simp only [UInt8.reduceToNat] at h
  omega

/-- Visible octets are those of the characters with their numbers. -/
theorem octets_of_isVisible {value : Bytes} (h : ∀ b ∈ value, isVisible b = true) :
    octets (value.map fun b => Char.ofNat b.toNat) = value := by
  induction value with
  | nil => rfl
  | cons b value ih =>
    obtain ⟨hb, hvalue⟩ := List.forall_mem_cons.1 h
    have hlt := toNat_of_isVisible hb
    have hnumber : (Char.ofNat b.toNat).toNat = b.toNat :=
      Utf8.toNat_ofNat_of_valid (.inl (by omega))
    rw [List.map_cons, octets_cons_of_lt (by omega), hnumber, UInt8.ofNat_toNat, ih hvalue]

namespace Headers

theorem visible?_eq_some_iff {value : Bytes} {text : String} :
    visible? value = some text ↔ value = Utf8.encode text ∧ ∀ b ∈ value, isVisible b = true := by
  unfold visible?
  constructor
  · intro h
    split at h
    next hall =>
      have hvisible := List.all_eq_true.1 hall
      refine ⟨?_, hvisible⟩
      rw [← Option.some.inj h, Utf8.encode_ofList, octets_of_isVisible hvisible]
    next => cases h
  · rintro ⟨htext, hvisible⟩
    rw [if_pos (List.all_eq_true.2 hvisible)]
    congr 1
    apply Utf8.encode_injective
    rw [Utf8.encode_ofList, octets_of_isVisible hvisible, htext]

/-- The first value under a name is the octets of a text, all of them tabs, spaces or visible
characters. -/
def Says (name : String) (headers : Headers) (text : String) : Prop :=
  ∃ front found back, headers = front ++ (found, Utf8.encode text) :: back ∧
    lowerCase found = lowerCase name ∧
    (∀ e ∈ front, lowerCase e.1 ≠ lowerCase name) ∧
      ∀ b ∈ Utf8.encode text, b = 0x09 ∨ (0x20 ≤ b ∧ b ≤ 0x7E)

theorem first?_eq_some_iff {name : String} {headers : Headers} {value : Bytes} :
    headers.first? name = some value ↔
      ∃ front found back, headers = front ++ (found, value) :: back ∧
      lowerCase found = lowerCase name ∧
        ∀ e ∈ front, lowerCase e.1 ≠ lowerCase name := by
  unfold first?
  rw [Option.map_eq_some_iff]
  constructor
  · rintro ⟨⟨found, _⟩, hfind, rfl⟩
    obtain ⟨hfound, front, back, hheaders, hfront⟩ := List.find?_eq_some_iff_append.1 hfind
    refine ⟨front, found, back, hheaders, sameButCase_iff.1 hfound, ?_⟩
    intro e he hsame
    have hnot := hfront e he
    rw [sameButCase_iff.2 hsame] at hnot
    cases hnot
  · rintro ⟨front, found, back, hheaders, hfound, hfront⟩
    refine ⟨(found, value), List.find?_eq_some_iff_append.2
      ⟨sameButCase_iff.2 hfound, front, back, hheaders, ?_⟩, rfl⟩
    intro e he
    rw [Bool.not_eq_true', ← Bool.not_eq_true, sameButCase_iff]
    exact hfront e he

/-- The text that is found under a name is the one that the headers say. -/
theorem text?_eq_some_iff {name text : String} {headers : Headers} :
    headers.text? name = some text ↔ headers.Says name text := by
  unfold text? Says
  rw [Option.bind_eq_some_iff]
  constructor
  · rintro ⟨value, hvalue, htext⟩
    obtain ⟨rfl, hvisible⟩ := visible?_eq_some_iff.1 htext
    obtain ⟨front, found, back, hheaders, hfound, hfront⟩ := first?_eq_some_iff.1 hvalue
    exact ⟨front, found, back, hheaders, hfound, hfront, fun b hb =>
      isVisible_iff.1 (hvisible b hb)⟩
  · rintro ⟨front, found, back, hheaders, hfound, hfront, hvisible⟩
    refine ⟨Utf8.encode text, first?_eq_some_iff.2 ⟨front, found, back, hheaders, hfound, hfront⟩,
      ?_⟩
    exact visible?_eq_some_iff.2 ⟨rfl, fun b hb => isVisible_iff.2 (hvisible b hb)⟩

/-- Case does not count in a name. -/
theorem says_lowerCase_iff {name text : String} {headers : Headers} :
    headers.Says (lowerCase name) text ↔ headers.Says name text := by
  simp only [Says, lowerCase_lowerCase]

end Headers

/-! ## Names -/

/-- The signs that may stand in a name. -/
def nameSigns : List Char := "!#$%&'*+-.^_`|~".toList

/-- A character that may stand in a name: a letter or a digit of ASCII, or one of the signs. -/
def IsNameChar (c : Char) : Prop :=
  ('A'.toNat ≤ c.toNat ∧ c.toNat ≤ 'Z'.toNat) ∨ ('a'.toNat ≤ c.toNat ∧ c.toNat ≤ 'z'.toNat) ∨
    ('0'.toNat ≤ c.toNat ∧ c.toNat ≤ '9'.toNat) ∨ c ∈ nameSigns

/-- A text that a header can have as its name. -/
structure IsName (name : String) : Prop where
  /-- It is not empty. -/
  ne_empty : name ≠ ""
  /-- It is not too long. -/
  length_le : name.length ≤ 65535
  /-- Its characters may stand in a name. -/
  chars : ∀ c ∈ name.toList, IsNameChar c

theorem isNameChar_iff {c : Char} : isNameChar c = true ↔ IsNameChar c := by
  have hrange : ∀ low high : Char, (c.val ≥ low.val ∧ c.val ≤ high.val) ↔ low.toNat ≤ c.toNat ∧
      c.toNat ≤ high.toNat :=
    fun low high => and_congr UInt32.le_iff_toNat_le UInt32.le_iff_toNat_le
  have hupper : c.isUpper = true ↔ 'A'.toNat ≤ c.toNat ∧ c.toNat ≤ 'Z'.toNat :=
    decide_eq_true_iff.trans (hrange 'A' 'Z')
  have hlower : c.isLower = true ↔ 'a'.toNat ≤ c.toNat ∧ c.toNat ≤ 'z'.toNat :=
    (Bool.and_eq_true_iff.trans (and_congr decide_eq_true_iff decide_eq_true_iff)).trans
    (hrange 'a' 'z')
  have hdigit : c.isDigit = true ↔ '0'.toNat ≤ c.toNat ∧ c.toNat ≤ '9'.toNat :=
    (Bool.and_eq_true_iff.trans (and_congr decide_eq_true_iff decide_eq_true_iff)).trans
    (hrange '0' '9')
  have hsign : nameSigns.contains c = true ↔ c ∈ nameSigns := List.contains_iff_mem
  have hclasses : isNameChar c = (c.isUpper || c.isLower || c.isDigit || nameSigns.contains c) :=
    rfl
  rw [hclasses, Bool.or_eq_true, Bool.or_eq_true, Bool.or_eq_true, hupper, hlower, hdigit, hsign,
    or_assoc, or_assoc]
  exact Iff.rfl

/-- Case does not decide whether a character may stand in a name. -/
theorem isNameChar_toLower_iff {c : Char} : IsNameChar c.toLower ↔ IsNameChar c := by
  rcases toLower_eq_or c with hsame | ⟨hlow, hhigh, hlower⟩
  · rw [hsame]
  · have hsmall : 'a'.toNat ≤ c.toLower.toNat ∧ c.toLower.toNat ≤ 'z'.toNat := by
      rw [hlower]
      exact ⟨Nat.add_le_add_right hlow 32, Nat.add_le_add_right hhigh 32⟩
    exact ⟨fun _ => .inl ⟨hlow, hhigh⟩, fun _ => .inr (.inl hsmall)⟩

/-- A text is taken as the name of a header if, white space aside, it can be one. -/
theorem headerName?_eq_some_iff {header name : String} :
    headerName? header = some name ↔ IsName (Text.trim header) ∧
    lowerCase (Text.trim header) = name := by
  have hlength : (lowerCase (Text.trim header)).length = (Text.trim header).length := by
    rw [lowerCase, String.length_ofList, List.length_map, String.length_toList]
  have hempty : lowerCase (Text.trim header) = "" ↔ Text.trim header = "" := by
    rw [← String.length_eq_zero_iff, hlength, String.length_eq_zero_iff]
  have hchars : (lowerCase (Text.trim header)).toList.all isNameChar = true ↔
      ∀ c ∈ (Text.trim header).toList, IsNameChar c := by
    simp only [lowerCase, String.toList_ofList, List.all_eq_true, List.forall_mem_map,
      isNameChar_iff, isNameChar_toLower_iff]
  unfold headerName?
  dsimp only
  constructor
  · intro h
    split at h
    next hname =>
      obtain ⟨hsome, hshort, hall⟩ := hname
      exact ⟨⟨fun h => hsome (hempty.2 h), by rwa [hlength] at hshort, hchars.1 hall⟩,
        Option.some.inj h⟩
    next => cases h
  · rintro ⟨hname, rfl⟩
    refine if_pos ⟨fun h => hname.ne_empty (hempty.1 h), ?_, hchars.2 hname.chars⟩
    rw [hlength]
    exact hname.length_le

end RecordBoard.Http
