import RecordBoard.Http.Target
import RecordBoard.Proofs.Text.Utf8

/-!
# What is written into a target

Decoding a part of a target makes something of every octet, or of three of them, so only the empty
part stands for the empty text.  Octets other than the percent sign stand for themselves, and most
characters of one octet can be written into a query as they are.

## Main definitions

* `Target.IsPlain` — a character that a query leaves as it is.

## Main results

* `percentDecode_ne_nil` — decoding leaves an octet wherever there was one.
* `fields_of_plain` — the field that plain characters spell.
-/

namespace RecordBoard.Http

/-- Decoding leaves an octet wherever there was one. -/
theorem percentDecode_ne_nil {bytes : Bytes} (h : bytes ≠ []) : percentDecode bytes ≠ [] := by
  cases bytes with
  | nil => exact absurd rfl h
  | cons c rest =>
    unfold percentDecode
    repeat' first | exact List.cons_ne_nil _ _ | split

/-- Octets other than the percent sign stand for themselves. -/
theorem percentDecode_of_forall_ne {bytes : Bytes} (h : ∀ b ∈ bytes, b ≠ 0x25) :
    percentDecode bytes = bytes := by
  induction bytes with
  | nil => rfl
  | cons b rest ih =>
    obtain ⟨hb, hrest⟩ := List.forall_mem_cons.1 h
    unfold percentDecode
    rw [if_pos hb, ih hrest]

namespace Target

/-- A character of one octet that a query leaves as it is. -/
def IsPlain (c : Char) : Prop := c.toNat < 0x80 ∧ c ≠ '+' ∧ c ≠ '%' ∧ c ≠ '&' ∧ c ≠ '='

instance (c : Char) : Decidable (IsPlain c) := inferInstanceAs (Decidable (_ ∧ _))

theorem isPlain_of_all {chars : List Char} (h : chars.all (fun c => decide (IsPlain c)) = true) :
    ∀ c ∈ chars, IsPlain c :=
  fun c hc => of_decide_eq_true (List.all_eq_true.1 h c hc)

theorem octet_ne_percent {c : Char} (h : IsPlain c) : UInt8.ofNat c.toNat ≠ 0x25 := by
  obtain ⟨hsmall, -, hpercent, -, -⟩ := h
  intro heq
  have hnumber : c.toNat = 0x25 := (Utf8.octet_eq_iff (by omega) 0x25 (by decide)).1 heq
  exact hpercent (by rw [← Char.ofNat_toNat c, hnumber])

theorem octets_ne_percent {chars : List Char} (h : ∀ c ∈ chars, IsPlain c) :
    ∀ b ∈ Utf8.octets chars, b ≠ 0x25 := by
  induction chars with
  | nil => nofun
  | cons c rest ih =>
    obtain ⟨hc, hrest⟩ := List.forall_mem_cons.1 h
    rw [Utf8.octets_cons_of_lt hc.1]
    exact List.forall_mem_cons.2 ⟨octet_ne_percent hc, ih hrest⟩

/-- Plain characters stand for themselves in a field. -/
theorem decodePart_of_plain {chars : List Char} (h : ∀ c ∈ chars, IsPlain c) :
    decodePart chars = String.ofList chars := by
  have hspaces : (chars.map fun c => if c = '+' then ' ' else c) = chars := by
    rw [List.map_congr_left fun c hc => if_neg (h c hc).2.1, List.map_id']
  rw [decodePart, hspaces, Utf8.encode_ofList, percentDecode_of_forall_ne (octets_ne_percent h),
    Utf8.decodeLossy_octets]

theorem parts_of_not_mem {separator : Char} {chars : List Char} (h : separator ∉ chars) :
    parts separator chars = [chars] := by
  induction chars with
  | nil => rfl
  | cons c rest ih =>
    obtain ⟨hc, hrest⟩ := not_or.1 (mt List.mem_cons.2 h)
    rw [parts, if_neg (Ne.symm hc), ih hrest]

theorem cut_append {c : Char} {front : List Char} (h : c ∉ front) (back : List Char) :
    cut c (front ++ c :: back) = (front, back) := by
  have hfront : ∀ d ∈ front, (d != c) = true := by
    intro d hd
    rw [bne_iff_ne]
    rintro rfl
    exact h hd
  rw [cut, List.takeWhile_append_of_pos hfront, List.dropWhile_append_of_pos hfront]
  simp

/-- The field that plain characters spell. -/
theorem fields_of_plain (path : String) {name value : List Char} (hname : ∀ c ∈ name, IsPlain c)
    (hvalue : ∀ c ∈ value, IsPlain c) :
    (Target.mk path (String.ofList (name ++ '=' :: value))).fields =
      [(String.ofList name, String.ofList value)] := by
  have hwhole : '&' ∉ name ++ '=' :: value := by
    rw [List.mem_append, List.mem_cons]
    rintro (hmem | heq | hmem)
    · exact (hname _ hmem).2.2.2.1 rfl
    · exact absurd heq (by decide)
    · exact (hvalue _ hmem).2.2.2.1 rfl
  have hsign : '=' ∉ name := fun hmem => (hname _ hmem).2.2.2.2 rfl
  rw [fields, String.toList_ofList, parts_of_not_mem hwhole]
  simp only [List.filter_cons, List.filter_nil, cut_append hsign, decodePart_of_plain hname,
    decodePart_of_plain hvalue, bne_iff_ne, ne_eq, List.append_eq_nil_iff, reduceCtorEq, and_false,
    not_false_eq_true, if_true, List.map_cons, List.map_nil]

end Target

end RecordBoard.Http
