import RecordBoard.Proofs.Record.Stamp

/-!
# Completed records

A record that names no key is given one by its type and its id.  Where it has none of the one or the
other, it is completed: a type that stands in is written under the first name of the type, and an id
that is found elsewhere under that of the id.  A completed record has both, and names a key if and
only if it did before.

## Main definitions

* `completed` — a record with a type and an id where they were missing.

## Main results

* `get?_completed` — the fields of a completed record.
* `entityType?_completed`, `id?_completed` — its type and its id.
* `within_completed` — it is in shape if the record was.
-/

namespace RecordBoard.Record

open Json (Value)

/-- The record, with the type that stands in if it has none. -/
def typed (r : Record) : Record :=
  if r.entityType? = none then r.set "entity_type" (.string "task") else r

/-- The record, with the type that stands in and this id where it has none. -/
def completed (id : String) (r : Record) : Record :=
  if r.id? = none then r.typed.set "id" (.string id) else r.typed

theorem get?_typed (field : String) (r : Record) :
    r.typed.get? field =
      if field = "entity_type" ∧ r.entityType? = none then some (.string "task")
      else r.get? field := by
  unfold typed
  by_cases htype : r.entityType? = none
  · simp only [htype, if_true, and_true, get?_set]
  · simp only [htype, if_false, and_false]

theorem get?_completed (id field : String) (r : Record) :
    (r.completed id).get? field =
      if field = "id" ∧ r.id? = none then some (.string id)
      else if field = "entity_type" ∧ r.entityType? = none then some (.string "task")
      else r.get? field := by
  unfold completed
  by_cases hid : r.id? = none
  · simp only [hid, if_true, and_true, get?_set, get?_typed]
  · simp only [hid, if_false, and_false, get?_typed]

theorem text?_congr {field : String} {r r' : Record} (h : r.get? field = r'.get? field) :
    r.text? field = r'.text? field := by
  rw [text?, text?, h]

theorem entityType?_congr {r r' : Record} (hown : r.get? "entity_type" = r'.get? "entity_type")
    (halias : r.get? "type" = r'.get? "type") : r.entityType? = r'.entityType? := by
  rw [entityType?, entityType?, text?_congr hown, text?_congr halias]

theorem id?_typed (r : Record) : r.typed.id? = r.id? :=
  text?_congr (by rw [get?_typed, if_neg (by simp)])

/-- It names a key if it did before. -/
theorem key?_completed (id : String) (r : Record) : (r.completed id).key? = r.key? := by
  rw [key?, key?, get?_completed, if_neg (by simp), if_neg (by simp)]

/-- The completed record has a type. -/
theorem entityType?_completed (id : String) (r : Record) :
    (r.completed id).entityType? = some (r.entityType?.getD "task") := by
  cases htype : r.entityType? with
  | some entityType =>
    rw [Option.getD_some, ← htype]
    apply entityType?_congr
    · rw [get?_completed, if_neg (by simp), if_neg (by simp [htype])]
    · rw [get?_completed, if_neg (by simp), if_neg (by simp)]
  | none =>
    have hwritten : (r.completed id).get? "entity_type" = some (.string "task") := by
      rw [get?_completed, if_neg (by simp), if_pos ⟨rfl, htype⟩]
    rw [entityType?, text?, hwritten]
    rfl

/-- The completed record has an id. -/
theorem id?_completed {id : String} {r : Record} (h : r.id? = some id ∨ r.id? = none ∧ id ≠ "") :
    (r.completed id).id? = some id := by
  rcases h with hid | ⟨hid, hne⟩
  · rw [← hid]
    apply text?_congr
    rw [get?_completed, if_neg (by simp [hid]), if_neg (by simp)]
  · have hwritten : (r.completed id).get? "id" = some (.string id) := by
      rw [get?_completed, if_pos ⟨rfl, hid⟩]
    rw [id?, text?, hwritten]
    exact if_neg hne

theorem within_typed {room : Nat} {r : Record} (h : r.toValue.Within (room + 1)) :
    r.typed.toValue.Within (room + 1) := by
  unfold typed
  split
  · exact within_set "entity_type" h (within_string "task" room)
  · exact h

/-- It is in shape if the record was. -/
theorem within_completed {room : Nat} {r : Record} (id : String) (h : r.toValue.Within (room + 1)) :
    (r.completed id).toValue.Within (room + 1) := by
  unfold completed
  split
  · exact within_set "id" (within_typed h) (within_string id room)
  · exact within_typed h

end RecordBoard.Record
