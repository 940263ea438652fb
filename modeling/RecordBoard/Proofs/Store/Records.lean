import RecordBoard.Proofs.Record.Stamp
import RecordBoard.Proofs.Store.Action
import RecordBoard.Store.Session

/-!
# Writes on a table

On a store that every call reaches, a step that writes does one of three things: it leaves the table
alone because the record in its place cannot be read, it puts a stamped record in that place, or it
takes a key away.  `perform_upsert` and `perform_delete` say so once; everything that writes
preserve is proved from these two.

What holds of the records of a table is stated by `Table.Holds`, with the records as they were when
they were written.  The record that a write finds in its place is such a record, read again.

## Main definitions

* `Table.Holds` — every value is the written form of a record in order that has a property.
* `Table.HoldsAt` — the record under one key has a property, if it can be read.

## Main results

* `perform_upsert`, `perform_delete` — what a step that writes does.
* `Holds.upsert`, `Holds.delete` — what it takes for a property to be preserved.
* `HoldsAt.upsert`, `HoldsAt.delete` — what it takes under one key.
* `session_append`, `session_induction` — sessions, cut in the middle, and what every step
  preserves.
-/

namespace RecordBoard.Store

/-! ## Sessions -/

@[simp] theorem session_nil (b : Backend) (t : Table) : session b t [] = (t, []) := rfl

theorem session_cons (b : Backend) (t : Table) (step : Step) (rest : List Step) :
    session b t (step :: rest) =
      ((session b (step.perform b t).1 rest).1,
        (step.perform b t).2 :: (session b (step.perform b t).1 rest).2) := rfl

theorem session_append (b : Backend) (t : Table) (front back : List Step) :
    session b t (front ++ back) =
      ((session b (session b t front).1 back).1,
        (session b t front).2 ++ (session b (session b t front).1 back).2) := by
  induction front generalizing t with
  | nil => rfl
  | cons step rest ih => simp only [List.cons_append, session_cons, ih]

/-- What holds at first and is preserved by every step holds of the table that a session leaves. -/
theorem session_induction {P : Table → Prop} {b : Backend} {t : Table} (steps : List Step)
    (start : P t) (preserved : ∀ (t : Table), ∀ step ∈ steps, P t → P (step.perform b t).1) :
    P (session b t steps).1 := by
  induction steps generalizing t with
  | nil => exact start
  | cons step rest ih =>
    rw [session_cons]
    refine ih (preserved t step List.mem_cons_self start) ?_
    intro t' step' hstep'
    exact preserved t' step' (List.mem_cons_of_mem step hstep')

/-! ## One write -/

theorem getRecord_of_absent {t : Table} {key : String} (h : t.get? key = none) :
    Backend.direct.getRecord t key = .ok none := by
  have hget : Backend.direct.get t key = .ok none := congrArg Except.ok h
  unfold Backend.getRecord
  rw [hget]
  rfl

theorem getRecord_of_present {t : Table} {key : String} {value : Bytes}
    (h : t.get? key = some value) :
    Backend.direct.getRecord t key = (Backend.readRecord value).map some := by
  have hget : Backend.direct.get t key = .ok (some value) := congrArg Except.ok h
  unfold Backend.getRecord
  rw [hget]
  rfl

theorem getRecord_of_decode {t : Table} {key : String} {value : Bytes} {r : Record}
    (h : t.get? key = some value) (hdecode : Record.decode value = .ok r) :
    Backend.direct.getRecord t key = .ok (some r) := by
  rw [getRecord_of_present h, Backend.readRecord, hdecode]
  rfl

theorem getRecord_of_undecodable {t : Table} {key : String} {value : Bytes} {f : Json.Fault}
    (h : t.get? key = some value) (hdecode : Record.decode value = .error f) :
    Backend.direct.getRecord t key = .error (.failure (.unreadableRecord f)) := by
  rw [getRecord_of_present h, Backend.readRecord, hdecode]
  rfl

/-- A record that is found is what the value under its key spells. -/
theorem exists_value_of_getRecord {t : Table} {key : String} {r : Record}
    (h : Backend.direct.getRecord t key = .ok (some r)) :
    ∃ value, t.get? key = some value ∧ Record.decode value = .ok r := by
  cases hvalue : t.get? key with
  | none =>
    rw [getRecord_of_absent hvalue] at h
    cases h
  | some value =>
    cases hdecode : Record.decode value with
    | error f =>
      rw [getRecord_of_undecodable hvalue hdecode] at h
      cases h
    | ok r' =>
      rw [getRecord_of_decode hvalue hdecode] at h
      cases h
      exact ⟨value, rfl, hdecode⟩

theorem absent_of_getRecord {t : Table} {key : String}
    (h : Backend.direct.getRecord t key = .ok none) : t.get? key = none := by
  cases hvalue : t.get? key with
  | none => rfl
  | some value =>
    rw [getRecord_of_present hvalue] at h
    cases hread : Backend.readRecord value <;> rw [hread] at h <;> cases h

theorem upsert_of_ok {t : Table} {key : String} {previous : Option Record}
    (h : Backend.direct.getRecord t key = .ok previous) (r : Record) (now : UInt64) :
    Backend.direct.upsert key r now t =
      (t.insert key (r.stamp key previous now).encode, .ok (r.stamp key previous now)) := by
  have hread : Action.reading (fun t => Backend.direct.getRecord t key) t = (t, .ok previous) :=
    congrArg (Prod.mk t) h
  unfold Backend.upsert
  rw [Action.bind_of_ok hread]
  rfl

theorem upsert_of_error {t : Table} {key : String} {e : Trouble}
    (h : Backend.direct.getRecord t key = .error e) (r : Record) (now : UInt64) :
    Backend.direct.upsert key r now t = (t, .error e) := by
  have hread : Action.reading (fun t => Backend.direct.getRecord t key) t = (t, .error e) :=
    congrArg (Prod.mk t) h
  unfold Backend.upsert
  rw [Action.bind_of_error hread]

/-- A write puts a stamped record under its key, unless the one that is there cannot be read. -/
theorem perform_upsert (t : Table) (key : String) (r : Record) (now : UInt64) :
    (∃ previous, Backend.direct.getRecord t key = .ok previous ∧
      (Step.upsert key r now).perform .direct t =
        (t.insert key (r.stamp key previous now).encode,
          .ok (.stored (r.stamp key previous now)))) ∨
    (∃ e, Backend.direct.getRecord t key = .error e ∧
      (Step.upsert key r now).perform .direct t = (t, .error e)) := by
  simp only [Step.perform, Action.told]
  cases h : Backend.direct.getRecord t key with
  | ok previous =>
    refine .inl ⟨previous, rfl, ?_⟩
    rw [upsert_of_ok h]
    rfl
  | error e =>
    refine .inr ⟨e, rfl, ?_⟩
    rw [upsert_of_error h]
    rfl

theorem perform_delete (t : Table) (key : String) :
    (Step.delete key).perform .direct t = (t.erase key, .ok (.deleted (t.get? key).isSome)) := rfl

/-! ## What writes preserve -/

/-- Every value of the table is the written form of a record in order that has a property. -/
def Table.Holds (P : String → Record → Prop) (t : Table) : Prop :=
  ∀ key value, t.get? key = some value →
    ∃ r : Record, value = r.encode ∧ r.toValue.IsOrdered ∧ P key r

namespace Table

variable {P : String → Record → Prop} {t : Table}

theorem holds_empty : Table.empty.Holds P := by
  intro key value h
  cases h

/-- The record that is read under a key was written there, and the property held of it. -/
theorem Holds.getRecord (h : t.Holds P) {key : String} {p : Record}
    (hp : Backend.direct.getRecord t key = .ok (some p)) :
    ∃ s : Record, s.toValue.IsOrdered ∧ P key s ∧ p = s.reread := by
  obtain ⟨value, hvalue, hdecode⟩ := exists_value_of_getRecord hp
  obtain ⟨s, rfl, hordered, hs⟩ := h key value hvalue
  exact ⟨s, hordered, hs, Record.eq_reread_of_decode hordered hdecode⟩

/-- A write preserves a property that the stamp gives the written record. -/
theorem Holds.upsert (h : t.Holds P) {key : String} {r : Record} {now : UInt64}
    (hr : r.toValue.IsOrdered)
    (hstamp : ∀ previous, (∀ p, previous = some p →
        ∃ s : Record, s.toValue.IsOrdered ∧ P key s ∧ p = s.reread) →
      P key (r.stamp key previous now)) :
    ((Step.upsert key r now).perform .direct t).1.Holds P := by
  rcases perform_upsert t key r now with ⟨previous, hprevious, hperform⟩ | ⟨e, -, hperform⟩
  · rw [hperform]
    have hread : ∀ p, previous = some p →
        p.toValue.IsOrdered ∧ ∃ s : Record, s.toValue.IsOrdered ∧ P key s ∧ p = s.reread := by
      rintro p rfl
      obtain ⟨value, -, hdecode⟩ := exists_value_of_getRecord hprevious
      exact ⟨(Record.within_of_decode hdecode).ordered, h.getRecord hprevious⟩
    intro other value hvalue
    rw [get?_insert] at hvalue
    split at hvalue
    next heq =>
      cases hvalue
      rw [heq]
      exact ⟨_, rfl, Record.isOrdered_stamp key now hr fun p hp => (hread p hp).1,
        hstamp previous fun p hp => (hread p hp).2⟩
    next => exact h other value hvalue
  · rw [hperform]
    exact h

theorem Holds.delete (h : t.Holds P) (key : String) :
    ((Step.delete key).perform .direct t).1.Holds P := by
  rw [perform_delete]
  intro other value hvalue
  rw [get?_erase] at hvalue
  split at hvalue
  next => cases hvalue
  next => exact h other value hvalue

/-! ## What writes preserve under one key -/

/-- There is a value under the key, and a record that is read from it has a property. -/
def HoldsAt (key : String) (P : Record → Prop) (t : Table) : Prop :=
  ∃ value, t.get? key = some value ∧ ∀ r, Record.decode value = .ok r → P r

theorem HoldsAt.getRecord {key : String} {P : Record → Prop} (h : t.HoldsAt key P) {r : Record}
    (hr : Backend.direct.getRecord t key = .ok (some r)) : P r := by
  obtain ⟨value, hvalue, hP⟩ := h
  obtain ⟨value', hvalue', hdecode⟩ := exists_value_of_getRecord hr
  rw [hvalue] at hvalue'
  cases hvalue'
  exact hP r hdecode

/-- A write preserves a property of the record under a key, if the stamp hands it on. -/
theorem HoldsAt.upsert {key : String} {P : Record → Prop} (h : t.HoldsAt key P) {other : String}
    {r : Record} {now : UInt64} (hr : r.toValue.IsOrdered)
    (hstamp : ∀ p, P p → P (r.stamp key (some p) now).reread) :
    ((Step.upsert other r now).perform .direct t).1.HoldsAt key P := by
  rcases perform_upsert t other r now with ⟨previous, hprevious, hperform⟩ | ⟨e, -, hperform⟩
  · rw [hperform]
    by_cases heq : key = other
    · subst heq
      cases previous with
      | none =>
        obtain ⟨value, hvalue, -⟩ := h
        rw [absent_of_getRecord hprevious] at hvalue
        cases hvalue
      | some p =>
        obtain ⟨_, -, hdecode⟩ := exists_value_of_getRecord hprevious
        have hordered : (r.stamp key (some p) now).toValue.IsOrdered :=
          Record.isOrdered_stamp key now hr fun p' hp' =>
            Option.some.inj hp' ▸ (Record.within_of_decode hdecode).ordered
        refine ⟨_, by rw [get?_insert, if_pos rfl], fun s hs => ?_⟩
        rw [Record.eq_reread_of_decode hordered hs]
        exact hstamp p (h.getRecord hprevious)
    · obtain ⟨value, hvalue, hP⟩ := h
      exact ⟨value, by rw [get?_insert, if_neg heq, hvalue], hP⟩
  · rw [hperform]
    exact h

theorem HoldsAt.delete {key : String} {P : Record → Prop} (h : t.HoldsAt key P) {other : String}
    (hne : key ≠ other) : ((Step.delete other).perform .direct t).1.HoldsAt key P := by
  obtain ⟨value, hvalue, hP⟩ := h
  rw [perform_delete]
  exact ⟨value, by rw [get?_erase, if_neg hne, hvalue], hP⟩

end Table

end RecordBoard.Store
