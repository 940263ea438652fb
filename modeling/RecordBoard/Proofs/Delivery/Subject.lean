import RecordBoard.Proofs.Delivery.Mapping

/-!
# Where subjects go

The key of the record that a delivery becomes is a stem, which stands for the kind, with the text
behind it that tells the subject apart.  Nothing is put between the two, and the text may hold
anything: a dash, a colon, or what looks like another stem.

A key can still be taken apart, from the front.  No stem begins another one, so a key that begins
with one stem begins with no other, whatever follows.  The stem gives the kind, and what is left is
the text.

## Main definitions

* `Concerns` — what a delivery is about: an event, and the text that tells its subject apart.

## Main results

* `Kind.keyStem_append_eq_iff` — a stem and the text behind it can be told apart.
* `Concerns.unique` — a payload has at most one subject for an event.
* `exists_subject_of_normalize` — what a delivery is about that becomes a record, and where the
  record goes.
* `key_eq_iff` — records go to the same place if and only if they are about the same subject.
-/

namespace RecordBoard.Delivery

open Json (Value)

/-! ## Stems -/

namespace Kind

/-- No stem begins another one. -/
theorem eq_of_keyStem_isPrefix {kind kind' : Kind}
    (h : kind.keyStem.toList <+: kind'.keyStem.toList) :
    kind = kind' := by
  revert h
  cases kind <;> cases kind' <;> decide

/-- A stem and the text behind it can be told apart. -/
theorem keyStem_append_eq_iff {kind kind' : Kind} {s s' : String} :
    kind.keyStem ++ s = kind'.keyStem ++ s' ↔ kind = kind' ∧ s = s' := by
  constructor
  · intro h
    have hchars : kind.keyStem.toList ++ s.toList = kind'.keyStem.toList ++ s'.toList := by
      simpa only [String.toList_append] using congrArg String.toList h
    have hkind : kind = kind' := by
      -- Both stems begin the same key, so one of them begins the other.
      have hfront : kind.keyStem.toList <+: kind'.keyStem.toList ++ s'.toList := by
        rw [← hchars]
        exact List.prefix_append _ _
      rcases List.prefix_or_prefix_of_prefix hfront (List.prefix_append _ _) with hle | hle
      · exact eq_of_keyStem_isPrefix hle
      · exact (eq_of_keyStem_isPrefix hle).symm
    subst hkind
    exact ⟨rfl, String.toList_inj.1 (List.append_cancel_left hchars)⟩
  · rintro ⟨rfl, rfl⟩
    rfl

theorem event_injective {kind kind' : Kind} (h : kind.event = kind'.event) : kind = kind' := by
  revert h
  cases kind <;> cases kind' <;> decide

end Kind

/-! ## Subjects -/

/-- A delivery of this event with this payload is about the subject that the text tells apart. -/
def Concerns (event : String) (payload : Value) (identifier : String) : Prop :=
  ∃ kind subject, event = Kind.event kind ∧ kind.Identifies payload subject identifier

theorem IsIdentifier.unique {v : Value} {s s' : String} (h : IsIdentifier v s)
    (h' : IsIdentifier v s') :
    s = s' := by
  have hread := usableText?_eq_some_iff.2 h
  rw [usableText?_eq_some_iff.2 h'] at hread
  exact (Option.some.inj hread).symm

theorem Kind.Identifies.unique {kind : Kind} {payload subject subject' : Value}
    {identifier identifier' : String} (h : kind.Identifies payload subject identifier)
    (h' : kind.Identifies payload subject' identifier') :
    identifier = identifier' := by
  have hsubject : subject = subject' := Option.some.inj (h.isMember.symm.trans h'.isMember)
  subst hsubject
  obtain ⟨v, hv, hidentifier⟩ := h.isIdentified
  obtain ⟨v', hv', hidentifier'⟩ := h'.isIdentified
  have hvalue : v = v' := Option.some.inj (hv.symm.trans hv')
  subst hvalue
  exact hidentifier.unique hidentifier'

/-- A payload has at most one subject for an event. -/
theorem Concerns.unique {event : String} {payload : Value} {identifier identifier' : String}
    (h : Concerns event payload identifier) (h' : Concerns event payload identifier') :
    identifier = identifier' := by
  obtain ⟨kind, subject, hevent, hidentifies⟩ := h
  obtain ⟨kind', subject', hevent', hidentifies'⟩ := h'
  have hkind : kind = kind' := Kind.event_injective (hevent.symm.trans hevent')
  subst hkind
  exact hidentifies.unique hidentifies'

/-! ## Records -/

section Records

variable {event event' : String} {payload payload' : Value} {now now' : UInt64}
  {draft draft' : Draft}

/-- What a delivery is about that becomes a record, and where the record goes. -/
theorem exists_subject_of_normalize (h : normalize event payload now = .record draft) :
    ∃ kind identifier, event = Kind.event kind ∧ Concerns event payload identifier ∧
      draft.key = kind.keyStem ++ identifier := by
  have hrule : rule? event ≠ none := by
    intro hnone
    simp [normalize, hnone] at h
  obtain ⟨kind, rfl⟩ := exists_kind hrule
  by_cases hidentified : ∃ subject identifier, kind.Identifies payload subject identifier
  · obtain ⟨subject, identifier, hidentifies⟩ := hidentified
    rw [normalize_of_identifies hidentifies] at h
    cases h
    exact ⟨kind, identifier, rfl, ⟨kind, subject, rfl, hidentifies⟩,
      key_draft kind payload subject identifier now⟩
  · obtain ⟨gap, hgap⟩ := exists_gap_of_not_identifies hidentified now
    rw [hgap] at h
    cases h

/-- Records go to the same place if and only if they are about the same subject. -/
theorem key_eq_iff (h : normalize event payload now = .record draft)
    (h' : normalize event' payload' now' = .record draft') :
    draft.key = draft'.key ↔
      event = event' ∧ ∃ identifier, Concerns event payload identifier ∧
      Concerns event' payload' identifier := by
  obtain ⟨kind, identifier, hevent, hconcerns, hkey⟩ := exists_subject_of_normalize h
  obtain ⟨kind', identifier', hevent', hconcerns', hkey'⟩ := exists_subject_of_normalize h'
  rw [hkey, hkey', Kind.keyStem_append_eq_iff]
  constructor
  · rintro ⟨rfl, rfl⟩
    exact ⟨hevent.trans hevent'.symm, identifier, hconcerns, hconcerns'⟩
  · rintro ⟨rfl, text, htext, htext'⟩
    constructor
    · exact Kind.event_injective (hevent.symm.trans hevent')
    · rw [hconcerns.unique htext, hconcerns'.unique htext']

end Records

end RecordBoard.Delivery
