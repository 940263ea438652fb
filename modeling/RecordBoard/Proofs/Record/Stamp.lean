import RecordBoard.Proofs.Json.Reading
import RecordBoard.Proofs.Json.RoundTrip
import RecordBoard.Proofs.Number.Whole
import RecordBoard.Record.Stamp

/-!
# Stamped records, written and read

A stamp sets three fields and leaves all others as they are.  What it sets is a text, a word, and a
value that one of the two records involved had already, so a stamped record is in shape whenever
these two are.  A record in shape is read back from its written form, doubles aside as itself.

The stamp of the last write passes through a double when the next write looks at it.  Up to `2 ^ 53`
nothing is lost on the way.

## Main definitions

* `Record.reread` — the record that is read where one was written.

## Main results

* `get?_stamp` — the fields of a stamped record.
* `within_stamp` — a stamped record is in shape if the two records that it comes from are.
* `decode_encode`, `eq_reread_of_decode` — what is read where a record was written.
* `updatedAt_of_word`, `floor_of_updatedAt` — the stamp of a write as the next one sees it.
-/

namespace RecordBoard.Record

open Json (Value)

-- Powers are those of the core library, whatever else an importing module knows.
attribute [local instance (2000)] instPowNat

/-! ## Fields -/

@[simp] theorem get?_set (field other : String) (value : Value) (r : Record) :
    (r.set field value).get? other = if other = field then some value else r.get? other :=
  Keyed.get?_insert field other value r.fields

/-- The fields of a stamped record. -/
theorem get?_stamp (key : String) (previous : Option Record) (now : UInt64) (r : Record)
    (field : String) :
    (r.stamp key previous now).get? field =
      if field = "updated_at" then some (.ofWord (stampFor previous now))
      else if field = "created_at" then some (firstWritten previous now r)
      else if field = "key" then some (.string key)
      else r.get? field := by
  simp only [stamp, get?_set]

@[simp] theorem get?_stamp_key (key : String) (previous : Option Record) (now : UInt64)
    (r : Record) :
    (r.stamp key previous now).get? "key" = some (.string key) := by
  rw [get?_stamp, if_neg (by decide), if_neg (by decide), if_pos rfl]

@[simp] theorem get?_stamp_created (key : String) (previous : Option Record) (now : UInt64)
    (r : Record) :
    (r.stamp key previous now).get? "created_at" = some (firstWritten previous now r) := by
  rw [get?_stamp, if_neg (by decide), if_pos rfl]

@[simp] theorem get?_stamp_updated (key : String) (previous : Option Record) (now : UInt64)
    (r : Record) :
    (r.stamp key previous now).get? "updated_at" = some (.ofWord (stampFor previous now)) := by
  rw [get?_stamp, if_pos rfl]

/-! ## The moment of the first write -/

/-- A field that is present is there and not null. -/
theorem present?_eq_some_iff {field : String} {r : Record} {v : Value} :
    r.present? field = some v ↔ r.get? field = some v ∧ v.isNull = false := by
  rw [present?, Option.filter_eq_some_iff, Bool.not_eq_true']

theorem firstWritten_of_previous {p r : Record} {v : Value} (h : p.present? "created_at" = some v)
    (now : UInt64) : firstWritten (some p) now r = v := by
  simp only [firstWritten, Option.bind_some, h]
  rfl

/-- The moment of the first write comes from the record that is replaced, from the record that is
written, or from the clock. -/
theorem firstWritten_cases (previous : Option Record) (now : UInt64) (r : Record) :
    (∃ p, previous = some p ∧ p.present? "created_at" = some (firstWritten previous now r)) ∨
    r.present? "created_at" = some (firstWritten previous now r) ∨
    firstWritten previous now r = .ofWord now := by
  cases hp : previous.bind (present? "created_at") with
  | some v =>
    obtain ⟨p, rfl, hv⟩ := Option.bind_eq_some_iff.1 hp
    exact .inl ⟨p, rfl, by rw [firstWritten_of_previous hv, hv]⟩
  | none =>
    cases hr : r.present? "created_at" with
    | some v => exact .inr (.inl (by simp [firstWritten, hp, hr]))
    | none => exact .inr (.inr (by simp [firstWritten, hp, hr]))

theorem isNull_firstWritten (previous : Option Record) (now : UInt64) (r : Record) :
    (firstWritten previous now r).isNull = false := by
  rcases firstWritten_cases previous now r with ⟨p, -, hp⟩ | hr | hnow
  · exact (present?_eq_some_iff.1 hp).2
  · exact (present?_eq_some_iff.1 hr).2
  · rw [hnow]
    rfl

/-- The moment of the last write is not before the clock. -/
theorem le_stampFor (previous : Option Record) (now : UInt64) : now ≤ stampFor previous now := by
  unfold stampFor
  show now ≤ if now ≤ floor previous then floor previous else now
  split
  · assumption
  · exact UInt64.le_refl now

/-! ## Shape -/

theorem within_set {room : Nat} {r : Record} {v : Value} (field : String)
    (hr : r.toValue.Within (room + 1)) (hv : v.Within room) :
    (r.set field v).toValue.Within (room + 1) := by
  obtain ⟨hsorted, hfields⟩ := Value.within_object_iff.1 hr
  refine Value.within_object_iff.2 ⟨hsorted.insert field v, fun e he => ?_⟩
  rcases Keyed.mem_insert he with rfl | he
  · exact hv
  · exact hfields e he

theorem within_string (s : String) (room : Nat) : (Value.string s).Within room :=
  ⟨trivial, Nat.zero_le _⟩

theorem within_empty : empty.toValue.Within Json.maxDepth :=
  ⟨⟨List.Pairwise.nil, trivial⟩, Nat.succ_le_succ (Nat.zero_le _)⟩

theorem within_ofWord (n : UInt64) (room : Nat) : (Value.ofWord n).Within room :=
  ⟨trivial, Nat.zero_le _⟩

theorem within_of_present {room : Nat} {field : String} {r : Record} {v : Value}
    (hr : r.toValue.Within (room + 1)) (h : r.present? field = some v) : v.Within room :=
  Value.Within.member? hr (present?_eq_some_iff.1 h).1

/-- A stamped record is in shape if the two records that it comes from are. -/
theorem within_stamp {room : Nat} {previous : Option Record} {r : Record} (key : String)
    (now : UInt64) (hr : r.toValue.Within (room + 1))
    (hprevious : ∀ p, previous = some p → p.toValue.Within (room + 1)) :
    (r.stamp key previous now).toValue.Within (room + 1) := by
  have hfirst : (firstWritten previous now r).Within room := by
    rcases firstWritten_cases previous now r with ⟨p, hp, hpresent⟩ | hpresent | hnow
    · exact within_of_present (hprevious p hp) hpresent
    · exact within_of_present hr hpresent
    · rw [hnow]
      exact within_ofWord now room
  have hkey := within_set "key" hr (within_string key room)
  have hcreated := within_set "created_at" hkey hfirst
  exact within_set "updated_at" hcreated (within_ofWord _ room)

/-- It is in order if they are. -/
theorem isOrdered_stamp {previous : Option Record} {r : Record} (key : String) (now : UInt64)
    (hr : r.toValue.IsOrdered) (hprevious : ∀ p, previous = some p → p.toValue.IsOrdered) :
    (r.stamp key previous now).toValue.IsOrdered := by
  let room := r.toValue.depth + (previous.map fun p => p.toValue.depth).getD 0
  have hwithin : (r.stamp key previous now).toValue.Within (room + 1) := by
    refine within_stamp key now ⟨hr, by omega⟩ fun p hp => ⟨hprevious p hp, ?_⟩
    simp only [room, hp, Option.map_some, Option.getD_some]
    omega
  exact hwithin.ordered

/-! ## Reading what was written -/

/-- The record that is read where this one was written. -/
def reread (r : Record) : Record := ⟨Value.rereadFields r.fields⟩

theorem get?_reread (field : String) (r : Record) :
    r.reread.get? field = (r.get? field).map Value.reread :=
  Value.get?_rereadFields field r.fields

theorem toValue_reread (r : Record) : r.reread.toValue = r.toValue.reread := by
  rw [toValue, toValue, Value.reread, reread]

theorem within_of_decode {bytes : Bytes} {r : Record} (h : decode bytes = .ok r) :
    r.toValue.Within Json.maxDepth := by
  unfold decode at h
  cases hfields : Json.decodeObject "a map" bytes with
  | error f =>
    rw [hfields] at h
    cases h
  | ok fields =>
    rw [hfields] at h
    cases h
    exact Json.within_of_decodeObject hfields

theorem decode_of_toOption {bytes : Bytes} {r : Record} (h : (decode bytes).toOption = some r) :
    decode bytes = .ok r := by
  cases hresult : decode bytes with
  | error f =>
    rw [hresult] at h
    cases h
  | ok found =>
    rw [hresult] at h
    exact congrArg Except.ok (Option.some.inj h)

/-- A record in shape is read where it was written. -/
theorem decode_encode {r : Record} (h : r.toValue.Within Json.maxDepth) :
    decode r.encode = .ok r.reread := by
  rw [decode, encode, toValue, Json.decodeObject_encode "a map" h]
  rfl

/-- A record in order that is read where it was written is read as that, whatever else may fail. -/
theorem eq_reread_of_decode {r s : Record} (hr : r.toValue.IsOrdered)
    (h : decode r.encode = .ok s) : s = r.reread := by
  have hdepth : r.toValue.depth ≤ Json.maxDepth := by
    refine Nat.le_of_not_lt fun hlt => ?_
    obtain ⟨f, hf, -⟩ := Json.decodeObject_encode_of_depth_lt "a map" hr hlt
    rw [decode, encode, toValue, hf] at h
    cases h
  rw [decode_encode ⟨hr, hdepth⟩] at h
  exact (Except.ok.inj h).symm

/-! ## The moment of the last write -/

@[simp] theorem reread_ofWord (n : UInt64) : (Value.ofWord n).reread = .ofWord n := by
  rw [Value.ofWord, Value.reread, Json.Number.ofWord, Json.reread_integer]

@[simp] theorem readBack_ofWord (n : UInt64) : (Value.ofWord n).readBack = .ofWord n := by
  rw [Value.readBack_of_isOrdered _ (within_ofWord n 0).ordered, reread_ofWord]

theorem updatedAt_of_word {r : Record} {n : UInt64} (h : r.get? "updated_at" = some (.ofWord n))
    (hn : n.toNat ≤ 2 ^ (53 : Nat)) :
    ∃ d, r.updatedAt? = some d ∧ d.ceil = n.toNat ∧ d.floor = n.toNat := by
  obtain ⟨d, hd, hsign, hceil, hfloor⟩ := Binary64.ofInt_of_le hn
  refine ⟨d, ?_, hceil, hfloor⟩
  have hdouble : (Value.ofWord n).asDouble? = some d := hd
  rw [updatedAt?, h, Option.bind_some, moment?, hdouble, Option.filter_some, if_pos hsign]

/-- The least moment of a write is the stamp of the record that it replaces. -/
theorem floor_of_updatedAt {p : Record} {n : UInt64} (h : p.get? "updated_at" = some (.ofWord n))
    (hn : n.toNat ≤ 2 ^ (53 : Nat)) : floor (some p) = n := by
  obtain ⟨d, hd, hceil, -⟩ := updatedAt_of_word h hn
  rw [floor, Option.bind_some, hd]
  show UInt64.ofNatClamp d.ceil = n
  rw [hceil]
  simp

end RecordBoard.Record
