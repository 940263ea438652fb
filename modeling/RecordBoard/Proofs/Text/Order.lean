import RecordBoard.Proofs.Text.Utf8

/-!
# The order of texts and of their octets

Texts are ordered by the numbers of their characters, from the front.  Their octets, ordered by
number from the front, are in the same order, since of two characters the one with the larger number
has the larger octet where their octets first differ.

In this order the texts that begin with one stem stand side by side: the stem comes first, and a
text between two of them is one of them.

## Main results

* `encode_lt_encode` — the octets of texts are in the order of the texts.
* `le_of_begins`, `begins_of_between` — where the texts stand that begin with a stem.
-/

namespace RecordBoard.Utf8

/-! ## Octets -/

private theorem cons_octet_lt {n m : Nat} (hn : n < 256) (hm : m < 256) (h : n < m) (x y : Bytes) :
    UInt8.ofNat n :: x < UInt8.ofNat m :: y :=
  List.cons_lt_cons_iff.2 (.inl ((octet_lt_iff hn m hm).2 h))

private theorem cons_octet_lt_of_le {n m : Nat} (hm : m < 256) (h : n ≤ m) {x y : Bytes}
    (hxy : n = m → x < y) : UInt8.ofNat n :: x < UInt8.ofNat m :: y := by
  rcases Nat.lt_or_eq_of_le h with hlt | heq
  · exact cons_octet_lt (Nat.lt_trans hlt hm) hm hlt x y
  · exact List.cons_lt_cons_iff.2 (.inr ⟨congrArg UInt8.ofNat heq, hxy heq⟩)

/-- Of two characters the larger one has the larger octets, whatever follows them. -/
theorem utf8EncodeChar_lt {c d : Char} (h : c < d) (x y : Bytes) :
    String.utf8EncodeChar c ++ x < String.utf8EncodeChar d ++ y := by
  have hlt : c.toNat < d.toNat := h
  have hvalid := toNat_valid d
  unfold String.utf8EncodeChar
  rw [show c.val.toNat = c.toNat from rfl, show d.val.toNat = d.toNat from rfl]
  generalize c.toNat = n at hlt
  generalize d.toNat = m at hlt hvalid
  dsimp only
  -- A character of fewer octets has the smaller first one; of equally many, the first to differ
  -- counts.
  split
  · split
    · exact cons_octet_lt (by omega) (by omega) hlt _ _
    split
    · exact cons_octet_lt (by omega) (by omega) (by omega) _ _
    split
    · exact cons_octet_lt (by omega) (by omega) (by omega) _ _
    · exact cons_octet_lt (by omega) (by omega) (by omega) _ _
  split
  · rw [if_neg (by omega)]
    split
    · refine cons_octet_lt_of_le (by omega) (by omega) fun _ => ?_
      exact cons_octet_lt (by omega) (by omega) (by omega) _ _
    split
    · exact cons_octet_lt (by omega) (by omega) (by omega) _ _
    · exact cons_octet_lt (by omega) (by omega) (by omega) _ _
  split
  · rw [if_neg (by omega), if_neg (by omega)]
    split
    · refine cons_octet_lt_of_le (by omega) (by omega) fun _ => ?_
      refine cons_octet_lt_of_le (by omega) (by omega) fun _ => ?_
      exact cons_octet_lt (by omega) (by omega) (by omega) _ _
    · exact cons_octet_lt (by omega) (by omega) (by omega) _ _
  · rw [if_neg (by omega), if_neg (by omega), if_neg (by omega)]
    refine cons_octet_lt_of_le (by omega) (by omega) fun _ => ?_
    refine cons_octet_lt_of_le (by omega) (by omega) fun _ => ?_
    refine cons_octet_lt_of_le (by omega) (by omega) fun _ => ?_
    exact cons_octet_lt (by omega) (by omega) (by omega) _ _

theorem octets_lt {chars chars' : List Char} (h : chars < chars') :
    octets chars < octets chars' := by
  induction chars generalizing chars' with
  | nil =>
    cases chars' with
    | nil => exact absurd h (List.lt_irrefl [])
    | cons d rest' =>
      obtain ⟨b, tail, hoctets⟩ :=
        List.exists_cons_of_ne_nil (String.utf8EncodeChar_ne_nil (c := d))
      rw [octets, octets, List.flatMap_nil, List.flatMap_cons, hoctets]
      exact List.nil_lt_cons b _
  | cons c rest ih =>
    cases chars' with
    | nil => exact absurd h (List.not_lt_nil _)
    | cons d rest' =>
      rw [octets, octets, List.flatMap_cons, List.flatMap_cons]
      rcases List.cons_lt_cons_iff.1 h with hlt | ⟨rfl, hrest⟩
      · exact utf8EncodeChar_lt hlt _ _
      · exact List.append_left_lt (ih hrest)

/-- The octets of texts are in the order of the texts. -/
theorem encode_lt_encode {s t : String} (h : s < t) : encode s < encode t :=
  octets_lt h

theorem encode_lt_encode_iff {s t : String} : encode s < encode t ↔ s < t := by
  constructor
  · intro h
    by_cases hlt : s < t
    · exact hlt
    by_cases hgt : t < s
    · exact absurd (encode_lt_encode hgt) (List.lt_asymm h)
    · have heq : s = t := String.le_antisymm (String.not_lt.1 hgt) (String.not_lt.1 hlt)
      rw [heq] at h
      exact absurd h (List.lt_irrefl _)
  · exact encode_lt_encode

end RecordBoard.Utf8

namespace RecordBoard.Text

-- Lists are in the order of the core library, whatever else an importing module knows.
attribute [local instance (2000)] List.instLE

/-! ## Stems -/

private theorem isPrefix_of_between {stem x z : List Char} (hz : stem <+: z) (hle : stem ≤ x)
    (hxz : x ≤ z) : stem <+: x := by
  induction stem generalizing x z with
  | nil => exact List.nil_prefix
  | cons c stem ih =>
    obtain ⟨rest, rfl⟩ := hz
    cases x with
    | nil => exact absurd (List.nil_lt_cons c stem) (List.not_lt.2 hle)
    | cons d x =>
      rcases List.cons_le_cons_iff.1 hle with hlt | ⟨rfl, hrest⟩
      · rcases List.cons_le_cons_iff.1 hxz with hlt' | ⟨rfl, -⟩
        · exact absurd hlt' (Char.lt_asymm hlt)
        · exact absurd hlt (Char.lt_irrefl _)
      · rcases List.cons_le_cons_iff.1 hxz with hlt' | ⟨-, hrest'⟩
        · exact absurd hlt' (Char.lt_irrefl _)
        · exact List.cons_prefix_cons.2 ⟨rfl, ih (List.prefix_append stem rest) hrest hrest'⟩

/-- A stem does not come behind the texts that begin with it. -/
theorem le_of_begins {stem s : String} (h : stem.toList <+: s.toList) : stem ≤ s :=
  h.le

/-- A text between two that begin with a stem begins with it too. -/
theorem begins_of_between {stem s t : String} (ht : stem.toList <+: t.toList) (hle : stem ≤ s)
    (hst : s ≤ t) : stem.toList <+: s.toList :=
  isPrefix_of_between ht hle hst

end RecordBoard.Text
