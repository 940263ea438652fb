import RecordBoard.Proofs.Store.Page

/-!
# What a write changes

A write reads the value in its place, stamps the record that it brings against it, and puts the
result there.  So two things stay as they are: of the record all fields but the three that are
stamped, and of the table all keys but the one that is written.  Nothing else is done if the value
in the place of the record is none.

The moment of the first write is where three parties have a say: the record that is replaced, the
record that is brought, and the clock.  A field that is missing and one that is null say nothing;
any other value counts, whatever its kind.

## Main definitions

* `Record.IsFirstMoment` — who has the say about the moment of the first write.
* `Record.IsStampOf` — a record is another one, stamped for a write.
* `Table.IsUnreadableAt` — there is a value under a key, and it is no record.
* `Table.WritesOnly` — two tables differ in nothing but one record.

## Main results

* `isStampOf_stamp` — what the stamp does to a record.
* `getRecord_of_readable`, `exists_fault_of_unreadable` — what reading the place of a record comes
  to.
* `upsert_sets_three_fields` — what a write does, and when it fails.
-/

namespace RecordBoard

open Json (Value)

theorem Json.Value.isNull_eq_false_iff {v : Value} : v.isNull = false ↔ v ≠ .null := by
  cases v <;> simp [isNull]

namespace Record

/-! ## Stamps -/

/-- The fields that a write sets. -/
def stampedFields : List String := ["key", "created_at", "updated_at"]

/-- The record says nothing about its first write. -/
def LacksFirst (r : Record) : Prop := r.get? "created_at" = none ∨ r.get? "created_at" = some .null

theorem lacksFirst_iff {r : Record} : r.LacksFirst ↔ r.present? "created_at" = none := by
  rw [LacksFirst, present?]
  cases r.get? "created_at" with
  | none => simp
  | some v => cases v <;> simp [Value.isNull]

/-- Who has the say about the moment of the first write. -/
inductive IsFirstMoment (previous : Option Record) (now : UInt64) (r : Record) : Value → Prop
  /-- The record that is replaced, if it says anything. -/
  | carried {p : Record} {v : Value} (hprevious : previous = some p)
      (hv : p.get? "created_at" = some v) (hnull : v ≠ .null) : IsFirstMoment previous now r v
  /-- Else the record that is brought, if it does. -/
  | brought {v : Value} (hprevious : ∀ p, previous = some p → p.LacksFirst)
      (hv : r.get? "created_at" = some v) (hnull : v ≠ .null) : IsFirstMoment previous now r v
  /-- Else the clock. -/
  | clock (hprevious : ∀ p, previous = some p → p.LacksFirst) (hr : r.LacksFirst) :
      IsFirstMoment previous now r (.ofWord now)

theorem isFirstMoment_firstWritten (previous : Option Record) (now : UInt64) (r : Record) :
    IsFirstMoment previous now r (firstWritten previous now r) := by
  cases hp : previous.bind (present? "created_at") with
  | some v =>
    obtain ⟨p, rfl, hpresent⟩ := Option.bind_eq_some_iff.1 hp
    obtain ⟨hv, hnull⟩ := present?_eq_some_iff.1 hpresent
    rw [firstWritten_of_previous hpresent]
    exact .carried rfl hv (Value.isNull_eq_false_iff.1 hnull)
  | none =>
    have hprevious : ∀ p, previous = some p → p.LacksFirst := by
      rintro p rfl
      exact lacksFirst_iff.2 hp
    cases hr : r.present? "created_at" with
    | some v =>
      obtain ⟨hv, hnull⟩ := present?_eq_some_iff.1 hr
      have hfirst : firstWritten previous now r = v := by simp [firstWritten, hp, hr]
      rw [hfirst]
      exact .brought hprevious hv (Value.isNull_eq_false_iff.1 hnull)
    | none =>
      have hfirst : firstWritten previous now r = .ofWord now := by simp [firstWritten, hp, hr]
      rw [hfirst]
      exact .clock hprevious (lacksFirst_iff.2 hr)

/-- The record is `r`, stamped for a write under a key, in place of another record or none. -/
structure IsStampOf (key : String) (previous : Option Record) (now : UInt64) (r stored : Record) :
    Prop where
  /-- It names its key. -/
  key : stored.get? "key" = some (.string key)
  /-- It says when it was first written. -/
  created : ∃ v, stored.get? "created_at" = some v ∧ IsFirstMoment previous now r v
  /-- It says when it was last written, and that is not before the clock. -/
  updated : ∃ n : UInt64, stored.get? "updated_at" = some (.ofWord n) ∧ now ≤ n
  /-- All other fields are as they were, and no field was added. -/
  others : ∀ field, field ∉ stampedFields → stored.get? field = r.get? field
  /-- It is in key order if `r` is. -/
  sorted : Keyed.IsSorted r.fields → Keyed.IsSorted stored.fields

/-- A record is stamped by `stamp`. -/
theorem isStampOf_stamp (key : String) (previous : Option Record) (now : UInt64) (r : Record) :
    IsStampOf key previous now r (r.stamp key previous now) where
  key := get?_stamp_key key previous now r
  created := ⟨_, get?_stamp_created key previous now r, isFirstMoment_firstWritten previous now r⟩
  updated := ⟨_, get?_stamp_updated key previous now r, le_stampFor previous now⟩
  others field hfield := by
    simp only [stampedFields, List.mem_cons, List.not_mem_nil, or_false, not_or] at hfield
    obtain ⟨hkey, hcreated, hupdated⟩ := hfield
    rw [get?_stamp, if_neg hupdated, if_neg hcreated, if_neg hkey]
  sorted h := ((h.insert _ _).insert _ _).insert _ _

end Record

namespace Store

/-! ## Places -/

namespace Table

variable {t : Table} {key : String}

/-- There is a value under the key, and it is no record. -/
def IsUnreadableAt (key : String) (t : Table) : Prop :=
  ∃ value f, t.get? key = some value ∧ Record.decode value = .error f

/-- The tables differ in nothing but the record that is stored under the key. -/
structure WritesOnly (key : String) (stored : Record) (t new : Table) : Prop where
  /-- The record is under the key, in its written form. -/
  here : new.get? key = some stored.encode
  /-- Under other keys is what there was. -/
  elsewhere : ∀ other, other ≠ key → new.get? other = t.get? other

theorem writesOnly_insert (key : String) (stored : Record) (t : Table) :
    WritesOnly key stored t (t.insert key stored.encode) where
  here := by rw [get?_insert, if_pos rfl]
  elsewhere other hother := by rw [get?_insert, if_neg hother]

theorem not_isUnreadableAt_of_record? {r : Record} (h : t.record? key = some r) :
    ¬ t.IsUnreadableAt key := by
  rintro ⟨value, f, hvalue, hdecode⟩
  rw [record?, hvalue, Option.bind_some, hdecode] at h
  cases h

/-- Where there is no record there is nothing, or something else. -/
theorem absent_or_unreadable (h : ∀ r, t.record? key ≠ some r) :
    t.get? key = none ∨ t.IsUnreadableAt key := by
  cases hvalue : t.get? key with
  | none => exact .inl rfl
  | some value =>
    cases hdecode : Record.decode value with
    | error f => exact .inr ⟨value, f, hvalue, hdecode⟩
    | ok r => exact absurd (by rw [record?, hvalue, Option.bind_some, hdecode]; rfl) (h r)

/-- What is read in the place of a record is a failure if there is a value that is none, -/
theorem exists_fault_of_unreadable (h : t.IsUnreadableAt key) :
    ∃ f, Backend.direct.getRecord t key = .error (.failure (.unreadableRecord f)) := by
  obtain ⟨value, f, hvalue, hdecode⟩ := h
  exact ⟨f, getRecord_of_undecodable hvalue hdecode⟩

/-- and else the record, if there is one. -/
theorem getRecord_of_readable (h : ¬ t.IsUnreadableAt key) :
    Backend.direct.getRecord t key = .ok (t.record? key) := by
  cases hvalue : t.get? key with
  | none => rw [getRecord_of_absent hvalue, record?, hvalue, Option.bind_none]
  | some value =>
    cases hdecode : Record.decode value with
    | error f => exact absurd ⟨value, f, hvalue, hdecode⟩ h
    | ok r =>
      rw [getRecord_of_decode hvalue hdecode, record?, hvalue, Option.bind_some, hdecode]
      rfl

end Table

/-! ## Writes -/

open Backend (direct)

/--
**A write sets three fields of one record.**  On a store that every call reaches, whatever the key,
the record and the clock:

* it fails if and only if there is a value under the key that is no record, and then the table that
  it leaves is what it was;
* else the record that it comes to is the one that it was given but for its three stamps, and the
  table that it leaves differs from the one before only in having that record under the key.
-/
theorem upsert_sets_three_fields (t : Table) (key : String) (r : Record) (now : UInt64) :
    ((∃ e, (direct.upsert key r now t).2 = .error e) ↔ t.IsUnreadableAt key) ∧
    (∀ new e, direct.upsert key r now t = (new, .error e) →
      new = t ∧ (Step.upsert key r now).perform .direct t = (t, .error e)) ∧
    (∀ new stored, direct.upsert key r now t = (new, .ok stored) →
      (Step.upsert key r now).perform .direct t = (new, .ok (.stored stored)) ∧
      Record.IsStampOf key (t.record? key) now r stored ∧
      t.WritesOnly key stored new) := by
  by_cases hplace : t.IsUnreadableAt key
  · obtain ⟨f, hf⟩ := Table.exists_fault_of_unreadable hplace
    have hfails := upsert_of_error hf r now
    have hleaves : (Step.upsert key r now).perform .direct t =
        (t, .error (.failure (.unreadableRecord f))) := by
      rw [Step.perform, Action.told, hfails]
      rfl
    rw [hfails, hleaves]
    refine ⟨iff_of_true ⟨_, rfl⟩ hplace, ?_, ?_⟩
    · intro new e he
      cases he
      exact ⟨rfl, rfl⟩
    · intro new stored h
      cases h
  · have hwrites := upsert_of_ok (Table.getRecord_of_readable hplace) r now
    have hleaves : (Step.upsert key r now).perform .direct t =
        (t.insert key (r.stamp key (t.record? key) now).encode,
          .ok (.stored (r.stamp key (t.record? key) now))) := by
      rw [Step.perform, Action.told, hwrites]
      rfl
    rw [hwrites, hleaves]
    refine ⟨iff_of_false ?_ hplace, ?_, ?_⟩
    · rintro ⟨e, he⟩
      cases he
    · intro new e he
      cases he
    · intro new stored h
      cases h
      exact ⟨rfl, Record.isStampOf_stamp key (t.record? key) now r, Table.writesOnly_insert key _ t⟩

/-- A record that brings a text as its moment, in place of one that says nothing, under the empty
key. -/
theorem upsert_keeps_what_is_brought :
    ∃ new stored,
      direct.upsert "" ⟨[("created_at", .string "soon")]⟩ 5
          (Table.empty.insert "" Record.empty.encode) = (new, .ok stored) ∧
      stored.get? "created_at" = some (.string "soon") ∧ new.get? "a" = none := by
  have hfound : (Table.empty.insert "" Record.empty.encode).record? "" = some Record.empty := by
    rw [Table.record?, Table.get?_insert, if_pos rfl, Option.bind_some,
      Record.decode_encode Record.within_empty]
    rfl
  obtain ⟨hfails, -, hwrites⟩ :=
    upsert_sets_three_fields (Table.empty.insert "" Record.empty.encode) ""
      ⟨[("created_at", .string "soon")]⟩ 5
  rcases hresult : direct.upsert "" ⟨[("created_at", .string "soon")]⟩ 5
      (Table.empty.insert "" Record.empty.encode) with ⟨new, e | stored⟩
  · exact absurd (hfails.1 ⟨e, by rw [hresult]⟩) (Table.not_isUnreadableAt_of_record? hfound)
  · obtain ⟨-, hstamp, honly⟩ := hwrites new stored hresult
    refine ⟨new, stored, rfl, ?_, honly.elsewhere "a" (by decide)⟩
    obtain ⟨v, hv, hfirst⟩ := hstamp.created
    rw [hv]
    cases hfirst with
    | carried hprevious hmoment _ =>
      rw [hfound] at hprevious
      cases hprevious
      cases hmoment
    | brought _ hmoment _ => exact hmoment.symm
    | clock _ hlacks => rcases hlacks with hlacks | hlacks <;> cases hlacks

end Store

end RecordBoard
