import Mathlib.Data.List.TakeWhile
import RecordBoard.Board.Resource
import RecordBoard.Proofs.Http.Target
import RecordBoard.Proofs.Text.Hex

/-!
# Writing a key into a path

Every text can be written as one segment of a path: the characters that mean nothing in a path stand
for themselves, and of all others each octet is written as a percent sign with two digits.  What is
written so has no slash, no question mark and no number sign in it, so the path is cut where it
should be; and decoding the segment gives the text back.

## Main definitions

* `percentEncode` — a text as it is written into a path.
* `Board.IsSegment` — a text that can be a segment of a path.

## Main results

* `percentDecode_percentEncode` — what is written into a path is read back.
* `IsSegment.ofTarget_record`, `IsSegment.ofTarget_status` — what a path names with such a segment
  in it.
* `ofTarget_percentEncode` — a text that is written into a path names a record.
-/

namespace RecordBoard

namespace Http

open Utf8 (octets octets_nil octets_append octets_cons_of_lt)

/-- The characters that stand for themselves in a path and mean nothing else. -/
def unreserved : List Char :=
  "ABCDEFGHIJKLMNOPQRSTUVWXYZabcdefghijklmnopqrstuvwxyz0123456789-._~".toList

/-- A character as it is written into a path. -/
def percentChar (c : Char) : List Char :=
  if c ∈ unreserved then [c] else (String.utf8EncodeChar c).flatMap fun b => '%' :: Hex.digits b

/-- A text as it is written into a path. -/
def percentEncode (s : String) : String := String.ofList (s.toList.flatMap percentChar)

/-! ## Reading back -/

theorem of_mem_unreserved {c : Char} (h : c ∈ unreserved) :
    c.toNat < 0x80 ∧ c ≠ '%' ∧ c ≠ '/' ∧ c ≠ '?' ∧ c ≠ '#' := by
  have hall : unreserved.all
      (fun c => c.toNat < 0x80 && c != '%' && c != '/' && c != '?' && c != '#') = true := by rfl
  simpa [and_assoc] using List.all_eq_true.1 hall c h

theorem percentDecode_cons_of_ne {b : UInt8} (h : b ≠ 0x25) (rest : Bytes) :
    percentDecode (b :: rest) = b :: percentDecode rest := by
  conv => lhs; unfold percentDecode
  rw [if_pos h]

theorem percentDecode_digits {a b : UInt8} {x y : Nat} (ha : Hex.value? a = some x)
    (hb : Hex.value? b = some y) (rest : Bytes) :
    percentDecode (0x25 :: a :: b :: rest) = UInt8.ofNat (x * 16 + y) :: percentDecode rest := by
  rw [percentDecode, if_neg (by decide), ha, hb]

theorem percentDecode_escaped (bytes rest : Bytes) :
    percentDecode (octets (bytes.flatMap fun b => '%' :: Hex.digits b) ++ rest) = bytes ++
      percentDecode rest := by
  induction bytes with
  | nil => rfl
  | cons b bytes ih =>
    have hb := b.toNat_lt
    obtain ⟨hhigh, -⟩ := Hex.value?_digit (b.toNat / 16) (by omega)
    obtain ⟨hlow, -⟩ := Hex.value?_digit (b.toNat % 16) (by omega)
    have hwhole : b.toNat / 16 * 16 + b.toNat % 16 = b.toNat := by omega
    have hfirst : octets ('%' :: Hex.digits b) =
        [0x25, UInt8.ofNat (Hex.digit (b.toNat / 16)).toNat,
         UInt8.ofNat (Hex.digit (b.toNat % 16)).toNat] := by
      rw [octets_cons_of_lt (by decide), Hex.octets_digits]
      rfl
    have hread := percentDecode_digits hhigh hlow
      (octets (bytes.flatMap fun b => '%' :: Hex.digits b) ++ rest)
    rw [List.flatMap_cons, octets_append, hfirst]
    simp only [List.cons_append, List.nil_append, hread, hwhole, UInt8.ofNat_toNat, ih]

theorem percentDecode_percentChar (c : Char) (rest : Bytes) :
    percentDecode (octets (percentChar c) ++ rest) = String.utf8EncodeChar c ++
      percentDecode rest := by
  unfold percentChar
  by_cases hc : c ∈ unreserved
  · obtain ⟨hsmall, hsign, -⟩ := of_mem_unreserved hc
    have hoctet : octets [c] = [UInt8.ofNat c.toNat] := by rw [octets_cons_of_lt hsmall, octets_nil]
    have hpercent : UInt8.ofNat c.toNat ≠ 0x25 := by
      intro heq
      have hnumber : c.toNat = 0x25 := (Utf8.octet_eq_iff (by omega) 0x25 (by decide)).1 heq
      exact hsign (Char.toNat_inj.1 hnumber)
    rw [if_pos hc, hoctet, Utf8.utf8EncodeChar_of_lt hsmall, List.singleton_append,
      percentDecode_cons_of_ne hpercent, List.singleton_append]
  · rw [if_neg hc]
    exact percentDecode_escaped _ rest

/-- What is written into a path is read back. -/
theorem percentDecode_percentEncode (s : String) :
    percentDecode (Utf8.encode (percentEncode s)) = Utf8.encode s := by
  have hchars : ∀ chars : List Char, percentDecode (octets (chars.flatMap percentChar)) =
      octets chars := by
    intro chars
    induction chars with
    | nil => rfl
    | cons c chars ih =>
      rw [List.flatMap_cons, octets_append, percentDecode_percentChar, ih]
      rfl
  rw [percentEncode, Utf8.encode_ofList, hchars, ← Utf8.encode_ofList, String.ofList_toList]

/-! ## The path -/

/-- No character of an encoded text means anything in a path. -/
theorem isPlain_percentEncode {s : String} {c : Char} (h : c ∈ (percentEncode s).toList) :
    c ≠ '/' ∧ c ≠ '?' ∧ c ≠ '#' := by
  rw [percentEncode, String.toList_ofList] at h
  obtain ⟨d, -, hc⟩ := List.mem_flatMap.1 h
  unfold percentChar at hc
  by_cases hd : d ∈ unreserved
  · rw [if_pos hd, List.mem_singleton] at hc
    subst hc
    exact (of_mem_unreserved hd).2.2
  · rw [if_neg hd] at hc
    obtain ⟨b, -, hc⟩ := List.mem_flatMap.1 hc
    have hb := b.toNat_lt
    have hdigit : c ∈ '%' :: "0123456789abcdef".toList := by
      simp only [Hex.digits, List.mem_cons, List.not_mem_nil, or_false] at hc
      rcases hc with rfl | rfl | rfl
      · exact List.mem_cons_self
      · exact List.mem_cons_of_mem _ (Hex.digit_mem _ (by omega))
      · exact List.mem_cons_of_mem _ (Hex.digit_mem _ (by omega))
    refine ⟨?_, ?_, ?_⟩ <;> rintro rfl <;> exact absurd hdigit (by decide)

theorem percentEncode_ne_empty {s : String} (h : s ≠ "") : percentEncode s ≠ "" := by
  intro hempty
  have hread := percentDecode_percentEncode s
  rw [hempty] at hread
  exact h (Utf8.encode_injective (hread.symm.trans rfl))

namespace Target

theorem cut_of_not_mem {c : Char} {chars : List Char} (h : c ∉ chars) :
    cut c chars = (chars, []) := by
  have hall : ∀ d ∈ chars, (d != c) = true := by
    intro d hd
    rw [bne_iff_ne]
    rintro rfl
    exact h hd
  rw [cut, List.takeWhile_eq_self_iff.2 hall, List.dropWhile_eq_nil_iff.2 hall]
  rfl

theorem parts_append_cons {separator : Char} {front : List Char} (h : separator ∉ front)
    (back : List Char) :
    parts separator (front ++ separator :: back) = front :: parts separator back := by
  induction front with
  | nil => rw [List.nil_append, parts, if_pos rfl]
  | cons c front ih =>
    obtain ⟨hc, hfront⟩ := not_or.1 (mt List.mem_cons.2 h)
    rw [List.cons_append, parts, if_neg (Ne.symm hc), ih hfront]

/-- A path without a query or a fragment is the target that it gives. -/
theorem ofText_of_path {path : String} {rest : List Char} (hpath : path.toList = '/' :: rest)
    (hquery : '?' ∉ path.toList) (hfragment : '#' ∉ path.toList) : ofText path = ⟨path, ""⟩ := by
  have hwhole : ofText.ofPath path.toList = ⟨path, ""⟩ := by
    unfold ofText.ofPath
    rw [cut_of_not_mem hquery]
    simp
  unfold ofText
  rw [cut_of_not_mem hfragment]
  rw [hpath] at hwhole ⊢
  exact hwhole

/-- The segments of a path are its parts, if it has neither a query nor a fragment. -/
theorem segments_ofText_of_path {path : String} {rest : List Char}
    (hpath : path.toList = '/' :: rest) (hquery : '?' ∉ rest) (hfragment : '#' ∉ rest) :
    (ofText path).segments = (parts '/' rest).map String.ofList := by
  have hsign : ∀ c : Char, c ≠ '/' → c ∉ rest → c ∉ path.toList := by
    intro c hc hrest hmem
    rw [hpath] at hmem
    exact (List.mem_cons.1 hmem).elim hc hrest
  rw [ofText_of_path hpath (hsign '?' (by decide) hquery) (hsign '#' (by decide) hfragment),
    segments, hpath, parts, if_pos rfl]
  rfl

end Target

end Http

namespace Board

open Http (Target percentEncode)

/-- A segment that is not empty, and in which no character means anything in a path. -/
structure IsSegment (segment : String) : Prop where
  /-- There is something in it. -/
  nonempty : segment ≠ ""
  /-- It ends where it should. -/
  plain : ∀ c ∈ segment.toList, c ≠ '/' ∧ c ≠ '?' ∧ c ≠ '#'

theorem isSegment_percentEncode {key : String} (h : key ≠ "") : IsSegment (percentEncode key) :=
  ⟨Http.percentEncode_ne_empty h, fun _ => Http.isPlain_percentEncode⟩

namespace IsSegment

variable {segment : String} (h : IsSegment segment)

include h

theorem not_mem {c : Char} (hc : c = '/' ∨ c = '?' ∨ c = '#') : c ∉ segment.toList := by
  intro hmem
  obtain ⟨hslash, hquery, hfragment⟩ := h.plain c hmem
  rcases hc with hc | hc | hc
  · exact hslash hc
  · exact hquery hc
  · exact hfragment hc

/-- It is the segment of the path that names a record, -/
theorem ofTarget_record :
    Resource.ofTarget (Target.ofText ("/state/" ++ segment)) = .record segment := by
  have hchars : ("/state/" ++ segment).toList =
      '/' :: ("state".toList ++ '/' :: segment.toList) := by
    rw [String.toList_append]
    rfl
  have hnot : ∀ c : Char, c = '?' ∨ c = '#' → c ∉ "state".toList ++ '/' :: segment.toList := by
    intro c hc
    have hsegment := h.not_mem (.inr hc)
    rcases hc with rfl | rfl <;> simp [hsegment]
  have hsegments : (Target.ofText ("/state/" ++ segment)).segments = ["state", segment] := by
    rw [Target.segments_ofText_of_path hchars (hnot '?' (.inl rfl)) (hnot '#' (.inr rfl)),
      Target.parts_append_cons (by decide), Target.parts_of_not_mem (h.not_mem (.inl rfl))]
    simp
  have hnonempty := h.nonempty
  unfold Resource.ofTarget
  rw [hsegments]
  split <;> simp_all

/-- and of the one that names its status. -/
theorem ofTarget_status :
    Resource.ofTarget (Target.ofText ("/state/" ++ segment ++ "/status")) = .status segment := by
  have hchars : ("/state/" ++ segment ++ "/status").toList =
      '/' :: ("state".toList ++ '/' :: (segment.toList ++ '/' :: "status".toList)) := by
    rw [String.toList_append, String.toList_append]
    simp
  have hnot : ∀ c : Char, c = '?' ∨ c = '#' →
      c ∉ "state".toList ++ '/' :: (segment.toList ++ '/' :: "status".toList) := by
    intro c hc
    have hsegment := h.not_mem (.inr hc)
    rcases hc with rfl | rfl <;> simp [hsegment]
  have hsegments : (Target.ofText ("/state/" ++ segment ++ "/status")).segments =
      ["state", segment, "status"] := by
    rw [Target.segments_ofText_of_path hchars (hnot '?' (.inl rfl)) (hnot '#' (.inr rfl)),
      Target.parts_append_cons (by decide), Target.parts_append_cons (h.not_mem (.inl rfl)),
      Target.parts_of_not_mem (by decide)]
    simp
  unfold Resource.ofTarget
  rw [hsegments]
  rfl

end IsSegment

/-- An encoded text is the segment of the path that names a record. -/
theorem ofTarget_percentEncode {key : String} (h : key ≠ "") :
    Resource.ofTarget (Target.ofText ("/state/" ++ percentEncode key)) =
      .record (percentEncode key) :=
  (isSegment_percentEncode h).ofTarget_record

theorem keyOf_percentEncode (key : String) : keyOf (percentEncode key) = .ok key := by
  unfold keyOf
  rw [Http.percentDecode_percentEncode, Utf8.decode_encode]

end Board

end RecordBoard
