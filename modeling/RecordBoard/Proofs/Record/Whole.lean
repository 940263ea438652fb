import RecordBoard.Proofs.Record.Stamp

/-!
# Records without doubles

Only a double can be read as something else than was written: an integer, a text or a truth value
comes back as it is.  So a record without doubles is read where it was written, and it stays one
when it is stamped, unless the moment of its first write is handed on from a record that has
doubles.

## Main definitions

* `Value.IsWhole` — no number in the value is a double.

## Main results

* `Value.reread_of_isWhole`, `Record.decode_of_isWhole` — such a value, and such a record, is read
  where it was written.
* `Record.isWhole_stamp` — a record without doubles is stored without any.
-/

namespace RecordBoard

open Json (Value)

/-! ## Values -/

namespace Json.Value

mutual

/-- No number in the value is a double. -/
def IsWhole : Value → Prop
  | .number (.double _) => False
  | .array items => ItemsWhole items
  | .object fields => FieldsWhole fields
  | _ => True

/-- No number in the items is. -/
def ItemsWhole : List Value → Prop
  | [] => True
  | v :: rest => v.IsWhole ∧ ItemsWhole rest

/-- No number in the values of the fields is. -/
def FieldsWhole : List (String × Value) → Prop
  | [] => True
  | (_, v) :: rest => v.IsWhole ∧ FieldsWhole rest

end

mutual

/-- A value without doubles is read where it was written. -/
theorem reread_of_isWhole (v : Value) (h : v.IsWhole) : v.reread = v := by
  cases v with
  | number n =>
    cases n with
    | integer i fits => rw [reread, reread_integer]
    | double d => exact h.elim
  | array items => rw [reread, rereadItems_of_whole items h]
  | object fields => rw [reread, rereadFields_of_whole fields h]
  | _ => simp [reread]

theorem rereadItems_of_whole (items : List Value) (h : ItemsWhole items) :
    rereadItems items = items := by
  cases items with
  | nil => rfl
  | cons v rest => rw [rereadItems, reread_of_isWhole v h.1, rereadItems_of_whole rest h.2]

theorem rereadFields_of_whole (fields : List (String × Value)) (h : FieldsWhole fields) :
    rereadFields fields = fields := by
  cases fields with
  | nil => rfl
  | cons e rest =>
    obtain ⟨name, v⟩ := e
    rw [rereadFields, reread_of_isWhole v h.1, rereadFields_of_whole rest h.2]

end

theorem fieldsWhole_iff {fields : List (String × Value)} :
    FieldsWhole fields ↔ ∀ e ∈ fields, e.2.IsWhole := by
  induction fields with
  | nil => simp [FieldsWhole]
  | cons e rest ih => simp [FieldsWhole, ih]

theorem isWhole_of_get? {field : String} {fields : List (String × Value)} {v : Value}
    (h : (object fields).IsWhole) (hv : Keyed.get? field fields = some v) : v.IsWhole :=
  fieldsWhole_iff.1 h (field, v) (Keyed.mem_of_get? hv)

end Json.Value

/-! ## Records -/

namespace Record

variable {r : Record}

theorem reread_of_isWhole (h : r.toValue.IsWhole) : r.reread = r :=
  congrArg Record.mk (Value.rereadFields_of_whole r.fields h)

theorem decode_of_isWhole (h : r.toValue.IsWhole) (hwithin : r.toValue.Within Json.maxDepth) :
    decode r.encode = .ok r := by
  rw [decode_encode hwithin, reread_of_isWhole h]

theorem isWhole_set {v : Value} (field : String) (hr : r.toValue.IsWhole) (hv : v.IsWhole) :
    (r.set field v).toValue.IsWhole := by
  refine Value.fieldsWhole_iff.2 fun e he => ?_
  rcases Keyed.mem_insert he with rfl | he
  · exact hv
  · exact Value.fieldsWhole_iff.1 hr e he

variable {previous : Option Record} {now : UInt64}

/-- The moment of the first write has no doubles if those that it may be taken from have none. -/
theorem isWhole_firstWritten (hr : r.toValue.IsWhole)
    (hprevious : ∀ v, previous.bind (present? "created_at") = some v → v.IsWhole) :
    (firstWritten previous now r).IsWhole := by
  rcases firstWritten_cases previous now r with ⟨p, rfl, hp⟩ | hown | hnow
  · exact hprevious _ hp
  · exact Value.isWhole_of_get? hr (present?_eq_some_iff.1 hown).1
  · rw [hnow]
    trivial

/-- A record without doubles that takes over a moment without any is stored without any. -/
theorem isWhole_stamp (key : String) (hr : r.toValue.IsWhole)
    (hprevious : ∀ v, previous.bind (present? "created_at") = some v → v.IsWhole) :
    (r.stamp key previous now).toValue.IsWhole :=
  have hnamed := isWhole_set "key" hr (v := .string key) trivial
  isWhole_set "updated_at" (isWhole_set "created_at" hnamed (isWhole_firstWritten hr hprevious))
    trivial

end Record

end RecordBoard
