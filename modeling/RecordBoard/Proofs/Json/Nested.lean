import Mathlib.Data.List.DropRight
import RecordBoard.Proofs.Json.Continued
import RecordBoard.Proofs.Json.RoundTrip

/-!
# Texts within texts

A text that spells a value can be put between the brackets of a list or behind the name of a field,
and spells the same value there.  What it takes is room for the brackets around it, so the number of
brackets that a text has open at once is kept beside its value.  That number is not the depth of the
value: of fields with one name only the last stays, but the reader has followed the brackets of all
of them.

For the same reason the fields of an object are needed as they are written where it matters how
often one comes.

## Main definitions

* `SpellsWithin` — a text that spells a value with no more than so many brackets open at once.
* `writtenFields` — the fields of an object as they are written.
* `inList`, `inObject` — a text as the only item of a list, and as the only field of an object.

## Main results

* `SpellsWithin.mono` — more room is no harm.
* `spellsWithin_encode` — a written value is read with as much room as it nests deep.
* `decode_eq_object_iff`, `decodeObject_of_decode` — the readers of objects agree.
* `SpellsWithin.inList`, `writtenFields_inObject` — a text is read within another as it is read
  alone.
-/

namespace RecordBoard.Json

/-! ## Room -/

/-- A text spells a value with no more than so many brackets open at once. -/
def SpellsWithin (room : Nat) (text : Bytes) (v : Value) : Prop :=
  complete text (readValue (enough text) room) = .ok v

/-- More room is no harm. -/
theorem SpellsWithin.mono {room room' : Nat} {text : Bytes} {v : Value}
    (h : SpellsWithin room text v) (hroom : room ≤ room') : SpellsWithin room' text v := by
  obtain ⟨rest, hread, hend⟩ := complete_eq_ok_iff.1 h
  have hagain := (readersContinue endsValue_nil (enough text)).value (enough text) room room' text
    (Nat.le_refl _) hroom v rest hread
  rw [List.append_nil, List.append_nil] at hagain
  exact complete_eq_ok_iff.2 ⟨rest, hagain, hend⟩

theorem decode_of_spellsWithin {room : Nat} {text : Bytes} {v : Value}
    (h : SpellsWithin room text v) (hroom : room ≤ maxDepth) : decode text = .ok v :=
  h.mono hroom

/-- A written value is read with as much room as it nests deep. -/
theorem spellsWithin_encode {room : Nat} {v : Value} (h : v.Within room) :
    SpellsWithin room v.encode v.reread := by
  rw [← Value.readBack_of_isOrdered v h.ordered]
  exact (complete_of_readsWithin (readsWithin_complete v room)).1 h.depth_le

/-! ## What stands between brackets -/

section Inversion

variable {fuel room : Nat} {input rest : Bytes}

/-- An array begins with the bracket of a list. -/
theorem exists_list_of_readValue {items : List Value}
    (h : readValue (fuel + 1) (room + 1) input = .ok (.array items, rest)) :
    ∃ inside, head input = .ok (.list inside) ∧ readItems fuel room inside = .ok (items, rest) := by
  rw [readValue] at h
  cases hhead : head input with
  | error s =>
    rw [hhead] at h
    cases h
  | ok front =>
    rw [hhead] at h
    cases front with
    | scalar v after =>
      cases h
      have hdepth := (within_of_head hhead 0).depth_le
      rw [Value.depth] at hdepth
      omega
    | list inside =>
      refine ⟨inside, rfl, ?_⟩
      cases hitems : readItems fuel room inside with
      | error s => simp [bind, Except.bind, hitems] at h
      | ok found =>
        simp only [bind, Except.bind, Nat.add_one_ne_zero, if_false, Nat.add_sub_cancel,
          hitems] at h
        cases h
        rfl
    | map inside =>
      cases hfields : readFields fuel room inside with
      | error s => simp [bind, Except.bind, hfields] at h
      | ok found => simp [bind, Except.bind, hfields] at h

/-- An object begins with the bracket of one, and its fields are put in order. -/
theorem readValue_eq_object_iff {fields : Keyed Value} :
    readValue (fuel + 1) (room + 1) input = .ok (.object fields, rest) ↔
      ∃ inside written, head input = .ok (.map inside) ∧
        readFields fuel room inside = .ok (written, rest) ∧ fields = Keyed.ofList written := by
  rw [readValue]
  cases hhead : head input with
  | error s => simp [bind, Except.bind]
  | ok front =>
    cases front with
    | scalar v after =>
      constructor
      · intro h
        cases h
        have hdepth := (within_of_head hhead 0).depth_le
        rw [Value.depth] at hdepth
        omega
      · rintro ⟨inside, written, h, -⟩
        cases h
    | list inside =>
      cases hitems : readItems fuel room inside <;> simp [bind, Except.bind, hitems]
    | map inside =>
      cases hfields : readFields fuel room inside with
      | error s => simp [bind, Except.bind, hfields]
      | ok found =>
        obtain ⟨written, after⟩ := found
        simp [bind, Except.bind, hfields, eq_comm, and_comm]

end Inversion

/-- The items of a list that a text spells. -/
theorem exists_items_of_decode {text : Bytes} {items : List Value}
    (h : decode text = .ok (.array items)) :
    ∃ inside rest, head text = .ok (.list inside) ∧
      readItems (enough text - 1) (maxDepth - 1) inside = .ok (items, rest) ∧
      skipSpace rest = [] := by
  obtain ⟨rest, hread, hend⟩ := complete_eq_ok_iff.1 h
  obtain ⟨inside, hhead, hitems⟩ := exists_list_of_readValue hread
  exact ⟨inside, rest, hhead, hitems, hend⟩

/-! ## Fields as they are written -/

/-- The fields of an object as they are written, from in front of its bracket on. -/
def readWritten (fuel : Nat) (input : Bytes) : Reading (List (String × Value) × Bytes) := do
  match ← head input with
  | .map inside => readFields fuel (maxDepth - 1) inside
  | other => other.refuse "a map"

/-- The fields of the object that a text spells, as they are written. -/
def writtenFields (text : Bytes) : Except Fault (List (String × Value)) :=
  complete text (readWritten (enough text - 1))

theorem writtenFields_eq_ok_iff {text : Bytes} {written : List (String × Value)} :
    writtenFields text = .ok written ↔ ∃ inside rest, head text = .ok (.map inside) ∧
      readFields (enough text - 1) (maxDepth - 1) inside = .ok (written, rest) ∧
      skipSpace rest = [] := by
  unfold writtenFields
  rw [complete_eq_ok_iff]
  unfold readWritten
  cases head text with
  | error s => simp [bind, Except.bind]
  | ok front => cases front <;> simp [bind, Except.bind, Head.refuse, stop]

/-- The fields of an object are those that are written, in order. -/
theorem decode_eq_object_iff {text : Bytes} {fields : Keyed Value} :
    decode text = .ok (.object fields) ↔
      ∃ written, writtenFields text = .ok written ∧ fields = Keyed.ofList written := by
  unfold decode
  rw [complete_eq_ok_iff]
  constructor
  · rintro ⟨rest, hread, hend⟩
    obtain ⟨inside, written, hhead, hfields, heq⟩ := readValue_eq_object_iff.1 hread
    exact ⟨written, writtenFields_eq_ok_iff.2 ⟨inside, rest, hhead, hfields, hend⟩, heq⟩
  · rintro ⟨written, hwritten, heq⟩
    obtain ⟨inside, rest, hhead, hfields, hend⟩ := writtenFields_eq_ok_iff.1 hwritten
    exact ⟨rest, readValue_eq_object_iff.2 ⟨inside, written, hhead, hfields, heq⟩, hend⟩

/-- An object that is read as a value is read where an object is asked for. -/
theorem decodeObject_of_decode {text : Bytes} {fields : Keyed Value}
    (h : decode text = .ok (.object fields)) (expected : String) :
    decodeObject expected text = .ok fields := by
  obtain ⟨written, hwritten, rfl⟩ := decode_eq_object_iff.1 h
  obtain ⟨inside, rest, hhead, hfields, hend⟩ := writtenFields_eq_ok_iff.1 hwritten
  have hagain :=
    (readersContinue endsValue_nil (enough text - 1)).fields (enough text) (maxDepth - 1)
    (maxDepth - 1) inside (Nat.sub_le _ 1) (Nat.le_refl _) written rest hfields
  rw [List.append_nil, List.append_nil] at hagain
  refine complete_eq_ok_iff.2 ⟨rest, ?_, hend⟩
  unfold readObject
  rw [hhead]
  simp only [bind, Except.bind, hagain]

/-! ## A text between brackets -/

theorem skipSpace_append_of_nil {rest : Bytes} (h : skipSpace rest = []) (more : Bytes) :
    skipSpace (rest ++ more) = skipSpace more := by
  unfold skipSpace at h ⊢
  rw [List.dropWhile_append, h]
  rfl

theorem skipSpace_skipSpace (input : Bytes) : skipSpace (skipSpace input) = skipSpace input := by
  unfold skipSpace
  exact List.dropWhile_idempotent _ _

theorem readValue_skipSpace (fuel room : Nat) (input : Bytes) :
    readValue fuel room (skipSpace input) = readValue fuel room input := by
  cases fuel with
  | zero => rw [readValue, readValue]
  | succ fuel =>
    have hhead : head (skipSpace input) = head input := by
      unfold head
      rw [skipSpace_skipSpace]
    rw [readValue, readValue, hhead]

/-- A value begins with an octet that closes no list. -/
theorem begins_of_readValue {fuel room : Nat} {input rest : Bytes} {v : Value}
    (h : readValue fuel room input = .ok (v, rest)) :
    ∃ c after, skipSpace input = c :: after ∧ c ≠ 0x5D := by
  cases fuel with
  | zero =>
    rw [readValue] at h
    cases h
  | succ fuel =>
    rw [readValue, head] at h
    cases hskip : skipSpace input with
    | nil =>
      rw [hskip] at h
      cases h
    | cons c after =>
      refine ⟨c, after, rfl, ?_⟩
      rintro rfl
      rw [hskip] at h
      cases h

/-- A text between the brackets of a list is read as its only item. -/
theorem readItems_single {fuel fuel' room room' : Nat} {text rest : Bytes} {v : Value}
    (hread : readValue fuel room text = .ok (v, rest)) (hend : skipSpace rest = [])
    (hfuel : fuel < fuel') (hroom : room ≤ room') (more : Bytes) :
    readItems fuel' room' (text ++ 0x5D :: more) = .ok ([v], more) := by
  have hpos : 0 < fuel := by
    refine Nat.pos_of_ne_zero ?_
    rintro rfl
    rw [readValue] at hread
    cases hread
  obtain ⟨k, rfl⟩ : ∃ k, fuel' = k + 1 + 1 := ⟨fuel' - 2, by omega⟩
  have hagain :=
    (readersContinue (endsValue_cons (.inr (.inl rfl)) more) fuel).value (k + 1) room room' text
    (by omega) hroom v rest hread
  obtain ⟨c, after, hskip, hc⟩ := begins_of_readValue hread
  have hclosed : readMoreItems (k + 1) room' (rest ++ 0x5D :: more) = .ok ([], more) := by
    rw [readMoreItems, skipSpace_append_of_nil hend, skipSpace_cons rfl]
    rfl
  rw [← readValue_skipSpace, skipSpace_append hskip] at hagain
  rw [readItems, skipSpace_append hskip]
  simp only [if_neg hc, hagain, hclosed, bind, Except.bind]

/-- A text as the only item of a list. -/
def inList (text : Bytes) : Bytes := 0x5B :: (text ++ [0x5D])

theorem SpellsWithin.inList {room : Nat} {text : Bytes} {v : Value} (h : SpellsWithin room text v) :
    SpellsWithin (room + 1) (inList text) (.array [v]) := by
  obtain ⟨rest, hread, hend⟩ := complete_eq_ok_iff.1 h
  have hfuel : enough (Json.inList text) = enough text + 3 + 1 := by
    simp only [enough, Json.inList, List.length_cons, List.length_append, List.length_nil]
    omega
  have hitems :=
    readItems_single hread hend (show enough text < enough text + 3 by omega) (Nat.le_refl room) []
  refine complete_eq_ok_iff.2 ⟨[], ?_, rfl⟩
  rw [hfuel, Json.inList, readValue_list, if_neg (Nat.succ_ne_zero room), Nat.add_sub_cancel,
    hitems]
  rfl

/-- A text as the only field of an object. -/
def inObject (name : String) (text : Bytes) : Bytes :=
  0x7B :: 0x22 :: (stringTail name ++ 0x3A :: (text ++ [0x7D]))

/-- It is the only field that is written, if there is room for it. -/
theorem writtenFields_inObject {room : Nat} {text : Bytes} {v : Value}
    (h : SpellsWithin room text v) (hroom : room < maxDepth) (name : String) :
    writtenFields (inObject name text) = .ok [(name, v)] := by
  obtain ⟨rest, hread, hend⟩ := complete_eq_ok_iff.1 h
  obtain ⟨k, hfuel, hk⟩ : ∃ k, enough (inObject name text) - 1 = k + 1 + 1 ∧
      enough text ≤ k + 1 := by
    refine ⟨enough (inObject name text) - 3, ?_⟩
    simp only [enough, inObject, List.length_cons, List.length_append, List.length_nil]
    omega
  have hagain :=
    (readersContinue (endsValue_cons (.inr (.inr rfl)) []) (enough text)).value (k + 1) room
    (maxDepth - 1) text hk (Nat.le_sub_one_of_lt hroom) v rest hread
  have hclosed : readMoreFields (k + 1) (maxDepth - 1) (rest ++ [0x7D]) = .ok ([], []) := by
    rw [readMoreFields, skipSpace_append_of_nil hend, skipSpace_cons rfl]
    rfl
  refine writtenFields_eq_ok_iff.2
    ⟨0x22 :: (stringTail name ++ 0x3A :: (text ++ [0x7D])), [], rfl, ?_, rfl⟩
  rw [hfuel, readFields_named, hagain]
  simp only [bind, Except.bind, hclosed]

end RecordBoard.Json
