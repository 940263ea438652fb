import RecordBoard.Json.Reader
import RecordBoard.Proofs.Keyed

/-!
# The shape of values

Two things decide whether a value survives being written and read.  The fields of its objects must
be in key order, since the reader puts them in order, and its brackets must not nest deeper than the
reader follows.  Both are said of a value by what they say of its parts.

## Main definitions

* `Value.depth` — how deep the brackets of a value nest.
* `Value.Within` — a value in order whose brackets nest no deeper than a bound.

## Main results

* `within_array_iff`, `within_object_iff` — a value is within a bound if its parts are within one
  less.
* `Within.member?` — a member lies one level further in.
-/

namespace RecordBoard.Json.Value

/-! ## Depth -/

mutual

/-- How deep the brackets of a value nest. -/
def depth : Value → Nat
  | .array items => itemsDepth items + 1
  | .object fields => fieldsDepth fields + 1
  | _ => 0

/-- How deep brackets nest in a list of items. -/
def itemsDepth : List Value → Nat
  | [] => 0
  | v :: rest => max v.depth (itemsDepth rest)

/-- How deep brackets nest in a list of fields. -/
def fieldsDepth : List (String × Value) → Nat
  | [] => 0
  | (_, v) :: rest => max v.depth (fieldsDepth rest)

end

theorem itemsDepth_le_iff {items : List Value} {n : Nat} :
    itemsDepth items ≤ n ↔ ∀ v ∈ items, v.depth ≤ n := by
  induction items with
  | nil => simp [itemsDepth]
  | cons v rest ih => rw [itemsDepth, Nat.max_le, ih, List.forall_mem_cons]

theorem fieldsDepth_le_iff {fields : List (String × Value)} {n : Nat} :
    fieldsDepth fields ≤ n ↔ ∀ e ∈ fields, e.2.depth ≤ n := by
  induction fields with
  | nil => simp [fieldsDepth]
  | cons e rest ih => rw [fieldsDepth, Nat.max_le, ih, List.forall_mem_cons]

theorem depth_le_fieldsDepth {fields : List (String × Value)} {e : String × Value}
    (h : e ∈ fields) :
    e.2.depth ≤ fieldsDepth fields :=
  fieldsDepth_le_iff.1 (Nat.le_refl _) e h

/-! ## Order -/

theorem itemsOrdered_iff {items : List Value} : ItemsOrdered items ↔ ∀ v ∈ items, v.IsOrdered := by
  induction items with
  | nil => simp [ItemsOrdered]
  | cons v rest ih => simp [ItemsOrdered, ih]

theorem fieldsOrdered_iff {fields : List (String × Value)} :
    FieldsOrdered fields ↔ ∀ e ∈ fields, e.2.IsOrdered := by
  induction fields with
  | nil => simp [FieldsOrdered]
  | cons e rest ih => simp [FieldsOrdered, ih]

/-! ## Both -/

/-- The fields of every object are in key order, and at most `room` brackets are open at once. -/
structure Within (room : Nat) (v : Value) : Prop where
  /-- The fields of every object are in key order. -/
  ordered : v.IsOrdered
  /-- The brackets do not nest deeper. -/
  depth_le : v.depth ≤ room

theorem Within.mono {room room' : Nat} {v : Value} (h : v.Within room) (hle : room ≤ room') :
    v.Within room' :=
  ⟨h.ordered, Nat.le_trans h.depth_le hle⟩

theorem within_array_iff {items : List Value} {room : Nat} :
    (array items).Within (room + 1) ↔ ∀ v ∈ items, v.Within room := by
  constructor
  · intro h v hv
    refine ⟨itemsOrdered_iff.1 h.ordered v hv, ?_⟩
    have hdepth : itemsDepth items + 1 ≤ room + 1 := h.depth_le
    exact itemsDepth_le_iff.1 (Nat.le_of_succ_le_succ hdepth) v hv
  · intro h
    refine ⟨itemsOrdered_iff.2 fun v hv => (h v hv).ordered, Nat.succ_le_succ ?_⟩
    exact itemsDepth_le_iff.2 fun v hv => (h v hv).depth_le

theorem within_object_iff {fields : List (String × Value)} {room : Nat} :
    (object fields).Within (room + 1) ↔
      Keyed.IsSorted fields ∧ ∀ e ∈ fields, e.2.Within room := by
  constructor
  · intro h
    obtain ⟨hsorted, hfields⟩ := h.ordered
    refine ⟨hsorted, fun e he => ⟨fieldsOrdered_iff.1 hfields e he, ?_⟩⟩
    have hdepth : fieldsDepth fields + 1 ≤ room + 1 := h.depth_le
    exact fieldsDepth_le_iff.1 (Nat.le_of_succ_le_succ hdepth) e he
  · rintro ⟨hsorted, hfields⟩
    refine ⟨⟨hsorted, fieldsOrdered_iff.2 fun e he => (hfields e he).ordered⟩, Nat.succ_le_succ ?_⟩
    exact fieldsDepth_le_iff.2 fun e he => (hfields e he).depth_le

/-- What the reader makes of fields. -/
theorem within_object_ofList {fields : List (String × Value)} {room : Nat}
    (h : ∀ e ∈ fields, e.2.Within room) : (object (Keyed.ofList fields)).Within (room + 1) :=
  within_object_iff.2 ⟨Keyed.isSorted_ofList fields, fun e he => h e (Keyed.mem_ofList he)⟩

/-- A member lies one level further in. -/
theorem Within.member? {room : Nat} {v w : Value} {name : String} (h : v.Within (room + 1))
    (hw : v.member? name = some w) : w.Within room := by
  cases v with
  | object fields => exact (within_object_iff.1 h).2 (name, w) (Keyed.mem_of_get? hw)
  | _ => cases hw

/-- So it nests at least one bracket less. -/
theorem depth_lt_of_member {v w : Value} {name : String} (h : v.member? name = some w) :
    w.depth < v.depth := by
  cases v with
  | object fields =>
    rw [depth]
    exact Nat.lt_succ_of_le (depth_le_fieldsDepth (Keyed.mem_of_get? h))
  | _ => cases h

end RecordBoard.Json.Value
