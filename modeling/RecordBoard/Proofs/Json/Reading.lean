import RecordBoard.Proofs.Json.Shape

/-!
# What is read is in shape

Whatever text the reader is given, the values it finds are in key order and nest no deeper than it
allows.  The five readers call each other with less and less fuel, so the statement about all of
them is proved by induction on the fuel: one step of a reader is right if the readers it calls are.

## Main definitions

* `Finds` — what is true of everything that a reading finds.

## Main results

* `readersWithin` — the five readers find values in shape.
* `within_of_decode`, `within_of_decodeObject` — so do the readers of whole texts.
-/

namespace RecordBoard.Json

/-! ## Readings -/

/-- Whatever the reading finds has a property. -/
def Finds {α : Type} (P : α → Prop) (reading : Reading (α × Bytes)) : Prop :=
  ∀ a rest, reading = .ok (a, rest) → P a

theorem Finds.ok {α : Type} {P : α → Prop} {a : α} (h : P a) (rest : Bytes) :
    Finds P (.ok (a, rest)) := by
  intro a' rest' heq
  cases heq
  exact h

theorem Finds.nil {α : Type} {P : α → Prop} (rest : Bytes) :
    Finds (fun found => ∀ a ∈ found, P a) (.ok ([], rest)) :=
  Finds.ok (P := fun found => ∀ a ∈ found, P a) (fun _ ha => absurd ha List.not_mem_nil) rest

theorem Finds.cons {α : Type} {P : α → Prop} {a : α} {others : List α} (ha : P a)
    (hothers : ∀ a ∈ others, P a) (rest : Bytes) :
    Finds (fun found => ∀ a ∈ found, P a) (.ok (a :: others, rest)) :=
  Finds.ok (P := fun found => ∀ a ∈ found, P a) (List.forall_mem_cons.2 ⟨ha, hothers⟩) rest

theorem Finds.error {α : Type} {P : α → Prop} (s : Stop) : Finds P (.error s) := by
  intro a rest heq
  cases heq

theorem Finds.after {α β : Type} {Q : β → Prop} {reading : Reading α}
    {next : α → Reading (β × Bytes)} (h : ∀ a, Finds Q (next a)) : Finds Q (reading >>= next) := by
  intro b rest heq
  cases reading with
  | error s => cases heq
  | ok a => exact h a b rest heq

theorem Finds.bind {α β : Type} {P : α → Prop} {Q : β → Prop} {reading : Reading (α × Bytes)}
    {next : α × Bytes → Reading (β × Bytes)} (h : Finds P reading)
    (h' : ∀ a rest, P a → Finds Q (next (a, rest))) : Finds Q (reading >>= next) := by
  intro b rest heq
  cases reading with
  | error s => cases heq
  | ok r => exact h' r.1 r.2 (h r.1 r.2 rfl) b rest heq

/-! ## The front of a value -/

theorem exists_of_map_eq_ok {α β : Type} {reading : Reading α} {f : α → β} {b : β}
    (h : reading.map f = .ok b) : ∃ a, reading = .ok a ∧ f a = b := by
  cases reading with
  | error s => cases h
  | ok a => exact ⟨a, rfl, Except.ok.inj h⟩

/-- A value without parts is in shape. -/
theorem within_of_head {input rest : Bytes} {v : Value} (h : head input = .ok (.scalar v rest))
    (room : Nat) : v.Within room := by
  unfold head at h
  split at h
  next => cases h
  next c after =>
    iterate 4
      split at h
      next =>
        obtain ⟨_, -, heq⟩ := exists_of_map_eq_ok h
        cases heq
        exact ⟨trivial, Nat.zero_le _⟩
    split at h
    next => cases h
    split at h
    next => cases h
    split at h
    next =>
      obtain ⟨_, -, heq⟩ := exists_of_map_eq_ok h
      cases heq
      exact ⟨trivial, Nat.zero_le _⟩
    next => cases h

/-! ## The readers -/

/-- What the five readers find with a given fuel is in shape. -/
structure ReadersWithin (fuel : Nat) : Prop where
  /-- A value is. -/
  value : ∀ room input, Finds (Value.Within room) (readValue fuel room input)
  /-- Items are. -/
  items : ∀ room input, Finds (fun items => ∀ v ∈ items, v.Within room) (readItems fuel room input)
  /-- So are the items behind an item. -/
  moreItems : ∀ room input,
    Finds (fun items => ∀ v ∈ items, v.Within room) (readMoreItems fuel room input)
  /-- The values of fields are. -/
  fields : ∀ room input,
    Finds (fun fields => ∀ e ∈ fields, e.2.Within room) (readFields fuel room input)
  /-- So are those of the fields behind a field. -/
  moreFields : ∀ room input,
    Finds (fun fields => ∀ e ∈ fields, e.2.Within room) (readMoreFields fuel room input)

theorem readersWithin_zero : ReadersWithin 0 where
  value _ _ := by rw [readValue]; exact Finds.error _
  items _ _ := by rw [readItems]; exact Finds.error _
  moreItems _ _ := by rw [readMoreItems]; exact Finds.error _
  fields _ _ := by rw [readFields]; exact Finds.error _
  moreFields _ _ := by rw [readMoreFields]; exact Finds.error _

section Step

variable {fuel : Nat} (h : ReadersWithin fuel)

include h

theorem finds_value (room : Nat) (input : Bytes) :
    Finds (Value.Within room) (readValue (fuel + 1) room input) := by
  rw [readValue]
  cases hhead : head input with
  | error s => exact Finds.error s
  | ok front =>
    cases front with
    | scalar v rest => exact Finds.ok (within_of_head hhead room) rest
    | list inside =>
      show Finds _ (if room = 0 then _ else _)
      split
      next => exact Finds.error _
      next hroom =>
        obtain ⟨room, rfl⟩ := Nat.exists_eq_add_one.2 (Nat.pos_of_ne_zero hroom)
        exact (h.items room inside).bind fun items rest hitems =>
          Finds.ok (Value.within_array_iff.2 hitems) rest
    | map inside =>
      show Finds _ (if room = 0 then _ else _)
      split
      next => exact Finds.error _
      next hroom =>
        obtain ⟨room, rfl⟩ := Nat.exists_eq_add_one.2 (Nat.pos_of_ne_zero hroom)
        exact (h.fields room inside).bind fun fields rest hfields =>
          Finds.ok (Value.within_object_ofList hfields) rest

/-- An item and those behind it. -/
theorem finds_item (room : Nat) (input : Bytes) :
    Finds (fun items => ∀ v ∈ items, v.Within room)
      (readValue fuel room input >>= fun (v, rest) =>
        readMoreItems fuel room rest >>= fun (items, rest) => .ok (v :: items, rest)) :=
  (h.value room input).bind fun _ rest hv =>
    (h.moreItems room rest).bind fun _ rest hitems => Finds.cons hv hitems rest

/-- A field and those behind it. -/
theorem finds_field (room : Nat) (input : Bytes) :
    Finds (fun fields : List (String × Value) => ∀ e ∈ fields, e.2.Within room)
      (fieldName input >>= fun (name, rest) => skipColon rest >>= fun input =>
        readValue fuel room input >>= fun (v, rest) =>
          readMoreFields fuel room rest >>= fun (fields, rest) =>
            .ok ((name, v) :: fields, rest)) :=
  Finds.after fun _ => Finds.after fun input =>
    (h.value room input).bind fun _ rest hv =>
      (h.moreFields room rest).bind fun _ rest hfields =>
        Finds.cons (P := fun e : String × Value => e.2.Within room) hv hfields rest

theorem finds_items (room : Nat) (input : Bytes) :
    Finds (fun items => ∀ v ∈ items, v.Within room) (readItems (fuel + 1) room input) := by
  rw [readItems]
  split
  next => exact Finds.error _
  next c after _ =>
    split
    next => exact Finds.nil after
    next => exact finds_item h room (c :: after)

theorem finds_moreItems (room : Nat) (input : Bytes) :
    Finds (fun items => ∀ v ∈ items, v.Within room) (readMoreItems (fuel + 1) room input) := by
  rw [readMoreItems]
  split
  next => exact Finds.error _
  next c after _ =>
    split
    next => exact Finds.nil after
    split
    next => exact Finds.error _
    split
    next => exact Finds.error _
    next c after _ =>
      split
      next => exact Finds.error _
      next => exact finds_item h room (c :: after)

theorem finds_fields (room : Nat) (input : Bytes) :
    Finds (fun fields => ∀ e ∈ fields, e.2.Within room) (readFields (fuel + 1) room input) := by
  rw [readFields]
  split
  next => exact Finds.error _
  next c after _ =>
    split
    next => exact Finds.nil after
    next => exact finds_field h room (c :: after)

theorem finds_moreFields (room : Nat) (input : Bytes) :
    Finds (fun fields => ∀ e ∈ fields, e.2.Within room) (readMoreFields (fuel + 1) room input) := by
  rw [readMoreFields]
  split
  next => exact Finds.error _
  next c after _ =>
    split
    next => exact Finds.nil after
    split
    next => exact Finds.error _
    split
    next => exact Finds.error _
    next c after _ =>
      split
      next => exact Finds.error _
      next => exact finds_field h room (c :: after)

end Step

/-- The five readers find values in shape. -/
theorem readersWithin (fuel : Nat) : ReadersWithin fuel := by
  induction fuel with
  | zero => exact readersWithin_zero
  | succ fuel ih =>
    exact ⟨finds_value ih, finds_items ih, finds_moreItems ih, finds_fields ih, finds_moreFields ih⟩

/-! ## Whole texts -/

/-- A whole text is read if white space is all that its reader leaves. -/
theorem complete_eq_ok_iff {α : Type} {text : Bytes} {reader : Bytes → Reading (α × Bytes)}
    {a : α} :
    complete text reader = .ok a ↔ ∃ rest, reader text = .ok (a, rest) ∧ skipSpace rest = [] := by
  unfold complete
  cases hread : reader text with
  | error s =>
    constructor
    · intro h
      cases h
    · rintro ⟨rest, h, -⟩
      cases h
  | ok found =>
    show located text (expectEnd found.2 >>= fun _ => pure found.1) = .ok a ↔ _
    unfold expectEnd
    cases hskip : skipSpace found.2 with
    | nil =>
      constructor
      · intro h
        cases h
        exact ⟨found.2, rfl, hskip⟩
      · rintro ⟨rest, h, -⟩
        cases h
        rfl
    | cons c after =>
      constructor
      · intro h
        cases h
      · rintro ⟨rest, h, hend⟩
        cases h
        rw [hskip] at hend
        cases hend

/-- What a text spells is in shape. -/
theorem within_of_decode {text : Bytes} {v : Value} (h : decode text = .ok v) :
    v.Within maxDepth := by
  obtain ⟨rest, hread, -⟩ := complete_eq_ok_iff.1 h
  exact (readersWithin _).value maxDepth text v rest hread

/-- So are the fields that a text spells. -/
theorem within_of_decodeObject {expected : String} {text : Bytes} {fields : Keyed Value}
    (h : decodeObject expected text = .ok fields) : (Value.object fields).Within maxDepth := by
  obtain ⟨rest, hread, -⟩ := complete_eq_ok_iff.1 h
  unfold readObject at hread
  cases hhead : head text with
  | error s =>
    rw [hhead] at hread
    cases hread
  | ok front =>
    rw [hhead] at hread
    cases front with
    | scalar v rest => cases hread
    | list inside => cases hread
    | map inside =>
      have hfields := (readersWithin (enough text)).fields (maxDepth - 1) inside
      have hobject : Finds (fun fields => (Value.object fields).Within maxDepth)
          (readFields (enough text) (maxDepth - 1) inside >>= fun (fields, rest) =>
            .ok (Keyed.ofList fields, rest)) :=
        hfields.bind fun fields rest hfields =>
          Finds.ok (P := fun fields => (Value.object fields).Within maxDepth)
            (Value.within_object_ofList hfields) rest
      exact hobject fields rest hread

end RecordBoard.Json
