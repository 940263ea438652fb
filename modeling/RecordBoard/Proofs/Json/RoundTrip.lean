import RecordBoard.Json.Printer
import RecordBoard.Json.Reader
import RecordBoard.Proofs.Json.Numeral
import RecordBoard.Proofs.Json.Quoted
import RecordBoard.Proofs.Json.Shape

/-!
# Reading written values

A value is read back from its written form if its brackets nest no deeper than the reader follows,
and refused for that reason if they do.  What is read differs from it in two ways: each double
becomes the double that its numeral is read as, and the fields of every object are put in key order.
So a value in key order is read as itself, doubles aside.

The two outcomes are one statement, `ReadsWithin`: it composes, the depth of two readings one after
the other being the larger depth, so one induction over values settles when a value is read and what
as.  The induction has a case for each reader: of values, of the items behind an item, of the fields
behind a field.  A step takes at least one octet of every two that the fuel is counted by.

## Main definitions

* `Value.readBack` — the value that is read where one was written.
* `Value.reread` — the value with every double replaced by the one that is read for it.
* `ReadsWithin` — what a reading of a given depth comes to.

## Main results

* `readBack_of_isOrdered` — a value in key order is read as itself, doubles aside.
* `readValue_encode` — a written value is read, or is too deep.
* `decode_encode`, `decodeObject_encode` — so is a whole text.
* `decodeObject_encode_of_depth_lt` — a value that nests deeper is refused.
* `readDeep_encode` — by a reader that follows brackets as deep as they come everything written is
  read.
-/

namespace RecordBoard.Json

/-! ## The value that is read -/

namespace Value

mutual

/-- The value with every number replaced by the one that is read for it. -/
def reread : Value → Value
  | .number n => .number n.reread
  | .array items => .array (rereadItems items)
  | .object fields => .object (rereadFields fields)
  | v => v

/-- Items with every number replaced. -/
def rereadItems : List Value → List Value
  | [] => []
  | v :: rest => v.reread :: rereadItems rest

/-- Fields with every number replaced. -/
def rereadFields : List (String × Value) → List (String × Value)
  | [] => []
  | (name, v) :: rest => (name, v.reread) :: rereadFields rest

end

@[simp] theorem reread_null : null.reread = null := by simp [reread]

@[simp] theorem reread_string (s : String) : (string s).reread = string s := by simp [reread]

theorem rereadItems_eq_map (items : List Value) : rereadItems items = items.map reread := by
  induction items with
  | nil => rfl
  | cons v rest ih => rw [rereadItems, ih, List.map_cons]

theorem rereadFields_eq_map (fields : List (String × Value)) :
    rereadFields fields = fields.map fun e => (e.1, e.2.reread) := by
  induction fields with
  | nil => rfl
  | cons e rest ih => rw [rereadFields, ih, List.map_cons]

theorem isSorted_rereadFields {fields : List (String × Value)} (h : Keyed.IsSorted fields) :
    Keyed.IsSorted (rereadFields fields) := by
  rw [rereadFields_eq_map]
  exact List.pairwise_map.2 h

theorem get?_rereadFields (name : String) (fields : List (String × Value)) :
    Keyed.get? name (rereadFields fields) = (Keyed.get? name fields).map reread := by
  induction fields with
  | nil => rfl
  | cons e rest ih =>
    obtain ⟨k, v⟩ := e
    rw [rereadFields, Keyed.get?, Keyed.get?]
    split
    · rfl
    · exact ih

mutual

/-- The value that is read where this one was written. -/
def readBack : Value → Value
  | .number n => .number n.reread
  | .array items => .array (readBackItems items)
  | .object fields => .object (Keyed.ofList (readBackFields fields))
  | v => v

/-- The items that are read where these were written. -/
def readBackItems : List Value → List Value
  | [] => []
  | v :: rest => v.readBack :: readBackItems rest

/-- The fields that are read where these were written, in the order they are written. -/
def readBackFields : List (String × Value) → List (String × Value)
  | [] => []
  | (name, v) :: rest => (name, v.readBack) :: readBackFields rest

end

@[simp] theorem readBack_boolean (b : Bool) : (boolean b).readBack = boolean b := by simp [readBack]

@[simp] theorem readBack_string (s : String) : (string s).readBack = string s := by simp [readBack]

@[simp] theorem readBack_ofString? (s : Option String) : (ofString? s).readBack = ofString? s := by
  cases s <;> simp [ofString?, readBack]

theorem readBackItems_eq_map (items : List Value) : readBackItems items = items.map readBack := by
  induction items with
  | nil => rfl
  | cons v rest ih => rw [readBackItems, ih, List.map_cons]

theorem readBackFields_eq_map (fields : List (String × Value)) :
    readBackFields fields = fields.map fun e => (e.1, e.2.readBack) := by
  induction fields with
  | nil => rfl
  | cons e rest ih => rw [readBackFields, ih, List.map_cons]

mutual

/-- In a value in key order there is nothing to put in order. -/
theorem readBack_of_isOrdered (v : Value) (h : v.IsOrdered) : v.readBack = v.reread := by
  cases v with
  | array items => rw [readBack, readBackItems_of_isOrdered items h, reread]
  | object fields =>
    rw [readBack, readBackFields_of_isOrdered fields h.2,
      Keyed.ofList_of_isSorted (isSorted_rereadFields h.1), reread]
  | number n => rw [readBack, reread]
  | null | boolean | string => simp [readBack, reread]

theorem readBackItems_of_isOrdered (items : List Value) (h : ItemsOrdered items) :
    readBackItems items = rereadItems items := by
  cases items with
  | nil => rfl
  | cons v rest =>
    rw [readBackItems, readBack_of_isOrdered v h.1, readBackItems_of_isOrdered rest h.2,
      rereadItems]

theorem readBackFields_of_isOrdered (fields : List (String × Value)) (h : FieldsOrdered fields) :
    readBackFields fields = rereadFields fields := by
  cases fields with
  | nil => rfl
  | cons e rest =>
    rw [readBackFields, readBack_of_isOrdered e.2 h.1, readBackFields_of_isOrdered rest h.2,
      rereadFields]

end

end Value

/-! ## Readings and their depth -/

/-- A reading for which `depth` brackets must be open: it finds `a` if so many may be, and else it
stops for that reason. -/
def ReadsWithin {α : Type} (depth room : Nat) (reading : Reading α) (a : α) : Prop :=
  (depth ≤ room → reading = .ok a) ∧ (room < depth → ∃ s, reading = .error s ∧ s.cause = .tooDeep)

theorem ReadsWithin.ok {α : Type} (room : Nat) (a : α) : ReadsWithin 0 room (.ok a) a :=
  ⟨fun _ => rfl, fun h => absurd h (Nat.not_lt_zero room)⟩

theorem ReadsWithin.bind {α β : Type} {depth depth' room : Nat} {reading : Reading α} {a : α}
    {next : α → Reading β} {b : β} (h : ReadsWithin depth room reading a)
    (h' : ReadsWithin depth' room (next a) b) :
    ReadsWithin (max depth depth') room (reading >>= next) b := by
  constructor
  · intro hle
    rw [h.1 (by omega)]
    exact h'.1 (by omega)
  · intro hlt
    rcases Nat.lt_or_ge room depth with hdeep | hshallow
    · obtain ⟨s, hs, hcause⟩ := h.2 hdeep
      exact ⟨s, by rw [hs]; rfl, hcause⟩
    · rw [h.1 hshallow]
      exact h'.2 (by omega)

/-- One more bracket. -/
theorem ReadsWithin.bracket {α : Type} {depth room : Nat} {reading : Reading α} {a : α}
    {input : Bytes} (h : 0 < room → ReadsWithin depth (room - 1) reading a) :
    ReadsWithin (depth + 1) room (if room = 0 then stopAt .tooDeep input else reading) a := by
  constructor
  · intro hle
    rw [if_neg (by omega)]
    exact (h (by omega)).1 (by omega)
  · intro hlt
    split
    · exact ⟨_, rfl, rfl⟩
    · exact (h (by omega)).2 (by omega)

theorem ReadsWithin.map {α β : Type} {depth room : Nat} {reading : Reading α} {a : α}
    {next : α → Reading β} {b : β} (h : ReadsWithin depth room reading a) (hnext : next a = .ok b) :
    ReadsWithin depth room (reading >>= next) b := by
  have hnext' : ReadsWithin 0 room (next a) b := by
    rw [hnext]
    exact ReadsWithin.ok room b
  have hbind := h.bind hnext'
  rwa [Nat.max_zero] at hbind

/-! ## The octets of arrays and objects -/

/-- What stands behind an item, up to the bracket that closes the list. -/
def itemsTail : List Value → Bytes
  | [] => [0x5D]
  | v :: rest => 0x2C :: (v.encode ++ itemsTail rest)

/-- What stands behind a field, up to the bracket that closes the object. -/
def fieldsTail : List (String × Value) → Bytes
  | [] => [0x7D]
  | (name, v) :: rest => 0x2C :: 0x22 :: (stringTail name ++ 0x3A :: (v.encode ++ fieldsTail rest))

/-- What stands behind the bracket that opens a list. -/
def itemsInside : List Value → Bytes
  | [] => [0x5D]
  | v :: rest => v.encode ++ itemsTail rest

/-- What stands behind the bracket that opens an object. -/
def fieldsInside : List (String × Value) → Bytes
  | [] => [0x7D]
  | (name, v) :: rest => 0x22 :: (stringTail name ++ 0x3A :: (v.encode ++ fieldsTail rest))

theorem encode_commaSeparated (opening closing first : String) (others : List String) :
    Utf8.encode (commaSeparated opening closing (first :: others)) =
      Utf8.encode opening ++ (Utf8.encode first ++
        (others.flatMap (fun part => 0x2C :: Utf8.encode part) ++ Utf8.encode closing)) := by
  rw [commaSeparated, Utf8.encode_append, Utf8.encode_append, List.append_assoc]
  congr 1
  induction others generalizing first with
  | nil => rw [String.intercalate_singleton, List.flatMap_nil, List.nil_append]
  | cons second others ih =>
    rw [String.intercalate_cons_cons, Utf8.encode_append, Utf8.encode_append, List.append_assoc,
      ih second, List.append_assoc, List.flatMap_cons, List.cons_append, List.cons_append,
      List.append_assoc]
    rfl

theorem itemsTail_eq (items : List Value) :
    itemsTail items =
      (Value.itemTexts items).flatMap (fun part => 0x2C :: Utf8.encode part) ++ [0x5D] := by
  induction items with
  | nil => rfl
  | cons v rest ih =>
    rw [itemsTail, Value.itemTexts, List.flatMap_cons, List.append_assoc, ih]
    rfl

theorem encode_field (name : String) (v : Value) :
    Utf8.encode (stringText name ++ ":" ++ v.text) =
      0x22 :: (stringTail name ++ 0x3A :: v.encode) := by
  rw [Utf8.encode_append, Utf8.encode_append, encode_stringText, List.append_assoc,
    List.cons_append]
  rfl

theorem fieldsTail_eq (fields : List (String × Value)) :
    fieldsTail fields =
      (Value.fieldTexts fields).flatMap (fun part => 0x2C :: Utf8.encode part) ++ [0x7D] := by
  induction fields with
  | nil => rfl
  | cons e rest ih =>
    obtain ⟨name, v⟩ := e
    rw [fieldsTail, Value.fieldTexts, List.flatMap_cons, encode_field, ih]
    simp only [List.cons_append, List.append_assoc]

theorem encode_array (items : List Value) :
    (Value.array items).encode = 0x5B :: itemsInside items := by
  cases items with
  | nil => rfl
  | cons v items =>
    rw [Value.encode, Value.text, Value.itemTexts, encode_commaSeparated, itemsInside, itemsTail_eq]
    rfl

theorem encode_object (fields : List (String × Value)) :
    (Value.object fields).encode = 0x7B :: fieldsInside fields := by
  cases fields with
  | nil => rfl
  | cons e fields =>
    obtain ⟨name, v⟩ := e
    rw [Value.encode, Value.text, Value.fieldTexts, encode_commaSeparated, encode_field,
      fieldsInside, fieldsTail_eq]
    simp only [List.cons_append, List.append_assoc]
    rfl

theorem endsValue_itemsTail (items : List Value) (rest : Bytes) :
    EndsValue (itemsTail items ++ rest) := by
  cases items with
  | nil => exact endsValue_cons (.inr (.inl rfl)) _
  | cons v items => exact endsValue_cons (.inl rfl) _

theorem endsValue_fieldsTail (fields : List (String × Value)) (rest : Bytes) :
    EndsValue (fieldsTail fields ++ rest) := by
  cases fields with
  | nil => exact endsValue_cons (.inr (.inr rfl)) _
  | cons e fields => exact endsValue_cons (.inl rfl) _

/-! ## The front of a written value -/

theorem skipSpace_cons {b : UInt8} (h : isSpace b = false) (rest : Bytes) :
    skipSpace (b :: rest) = b :: rest := by
  rw [skipSpace, List.dropWhile_cons_of_neg (by rw [h]; decide)]

/-- A written value begins with an octet that is no white space and closes no list. -/
theorem begins_encode (v : Value) :
    ∃ b after, v.encode = b :: after ∧ isSpace b = false ∧ b ≠ 0x5D := by
  cases v with
  | null => exact ⟨0x6E, [0x75, 0x6C, 0x6C], rfl, rfl, by decide⟩
  | boolean b =>
    cases b with
    | true => exact ⟨0x74, [0x72, 0x75, 0x65], rfl, rfl, by decide⟩
    | false => exact ⟨0x66, [0x61, 0x6C, 0x73, 0x65], rfl, rfl, by decide⟩
  | number n =>
    obtain ⟨b, after, heq, hb⟩ := begins_of_ofBytes (ofBytes_text n endsValue_nil)
    rw [List.append_nil] at heq
    refine ⟨b, after, heq, ?_, ?_⟩
    · rw [← Bool.not_eq_true]
      intro hspace
      simp only [isSpace, Bool.or_eq_true, beq_iff_eq, or_assoc] at hspace
      rcases hspace with rfl | rfl | rfl | rfl <;> exact absurd hb (by decide)
    · rintro rfl
      exact absurd hb (by decide)
  | string s => exact ⟨0x22, stringTail s, encode_stringText s, rfl, by decide⟩
  | array items => exact ⟨0x5B, itemsInside items, encode_array items, rfl, by decide⟩
  | object fields => exact ⟨0x7B, fieldsInside fields, encode_object fields, rfl, by decide⟩

theorem head_number (n : Number) {rest : Bytes} (hrest : EndsValue rest) :
    head ((Value.number n).encode ++ rest) = .ok (.scalar (.number n.reread) rest) := by
  have hread := ofBytes_text n hrest
  obtain ⟨b, after, heq, hspace, -⟩ := begins_encode (.number n)
  obtain ⟨b', after', heq', hb⟩ := begins_of_ofBytes (ofBytes_text n endsValue_nil)
  rw [List.append_nil] at heq'
  obtain ⟨rfl, rfl⟩ := List.cons.inj (heq.symm.trans heq')
  rw [heq', List.cons_append] at hread
  rw [heq, List.cons_append, head, skipSpace_cons hspace]
  have hne : ∀ c : UInt8, ¬ (c = 0x2D ∨ isDigit c = true) → b ≠ c := fun c hc heq => hc (heq ▸ hb)
  dsimp only
  rw [if_neg (hne _ (by decide)), if_neg (hne _ (by decide)), if_neg (hne _ (by decide)),
    if_neg (hne _ (by decide)), if_neg (hne _ (by decide)), if_neg (hne _ (by decide)), if_pos hb,
      hread]
  rfl

theorem head_string (s : String) (rest : Bytes) :
    head ((Value.string s).encode ++ rest) = .ok (.scalar (.string s) rest) := by
  rw [show (Value.string s).encode = 0x22 :: stringTail s from encode_stringText s,
    List.cons_append]
  show (stringBody (stringTail s ++ rest)).map _ = _
  rw [stringBody_stringTail]
  rfl

/-! ## One step of each reader -/

theorem readValue_scalar {fuel room : Nat} {input rest : Bytes} {v : Value}
    (h : head input = .ok (.scalar v rest)) : readValue (fuel + 1) room input = .ok (v, rest) := by
  rw [readValue, h]
  rfl

theorem readValue_list (fuel room : Nat) (inside : Bytes) :
    readValue (fuel + 1) room (0x5B :: inside) =
      if room = 0 then stopAt .tooDeep (0x5B :: inside)
      else readItems fuel (room - 1) inside >>= fun (items, rest) => .ok (.array items, rest) := by
  rw [readValue]
  rfl

theorem readValue_map (fuel room : Nat) (inside : Bytes) :
    readValue (fuel + 1) room (0x7B :: inside) =
      if room = 0 then stopAt .tooDeep (0x7B :: inside)
      else readFields fuel (room - 1) inside >>= fun (fields, rest) =>
        .ok (.object (Keyed.ofList fields), rest) := by
  rw [readValue]
  rfl

/-! The four readers of items and fields stop at the closing bracket. -/

theorem readItems_end (fuel room : Nat) (rest : Bytes) :
    readItems (fuel + 1) room (0x5D :: rest) = .ok ([], rest) := by
  rw [readItems]
  rfl

theorem readMoreItems_end (fuel room : Nat) (rest : Bytes) :
    readMoreItems (fuel + 1) room (0x5D :: rest) = .ok ([], rest) := by
  rw [readMoreItems]
  rfl

theorem readFields_end (fuel room : Nat) (rest : Bytes) :
    readFields (fuel + 1) room (0x7D :: rest) = .ok ([], rest) := by
  rw [readFields]
  rfl

theorem readMoreFields_end (fuel room : Nat) (rest : Bytes) :
    readMoreFields (fuel + 1) room (0x7D :: rest) = .ok ([], rest) := by
  rw [readMoreFields]
  rfl

/-- The first item of a list. -/
theorem readItems_encode (fuel room : Nat) (v : Value) (rest : Bytes) :
    readItems (fuel + 1) room (v.encode ++ rest) =
      readValue fuel room (v.encode ++ rest) >>= fun (v, rest) =>
        readMoreItems fuel room rest >>= fun (items, rest) => .ok (v :: items, rest) := by
  obtain ⟨b, after, heq, hspace, hend⟩ := begins_encode v
  rw [heq, List.cons_append, readItems, skipSpace_cons hspace]
  dsimp only
  rw [if_neg hend]

/-- An item behind another one. -/
theorem readMoreItems_encode (fuel room : Nat) (v : Value) (rest : Bytes) :
    readMoreItems (fuel + 1) room (0x2C :: (v.encode ++ rest)) =
      readValue fuel room (v.encode ++ rest) >>= fun (v, rest) =>
        readMoreItems fuel room rest >>= fun (items, rest) => .ok (v :: items, rest) := by
  obtain ⟨b, after, heq, hspace, hend⟩ := begins_encode v
  rw [heq, List.cons_append, readMoreItems, skipSpace_cons rfl]
  dsimp only
  rw [if_neg (by decide), if_neg (by decide), skipSpace_cons hspace]
  dsimp only
  rw [if_neg hend]

theorem fieldName_stringTail (name : String) (rest : Bytes) :
    fieldName (0x22 :: (stringTail name ++ rest)) = .ok (name, rest) :=
  stringBody_stringTail name rest

/-- The first field of an object. -/
theorem readFields_named (fuel room : Nat) (name : String) (input : Bytes) :
    readFields (fuel + 1) room (0x22 :: (stringTail name ++ 0x3A :: input)) =
      readValue fuel room input >>= fun (v, rest) =>
        readMoreFields fuel room rest >>= fun (fields, rest) =>
          .ok ((name, v) :: fields, rest) := by
  rw [readFields, skipSpace_cons rfl]
  dsimp only
  rw [if_neg (by decide), fieldName_stringTail]
  rfl

/-- A field behind another one. -/
theorem readMoreFields_named (fuel room : Nat) (name : String) (input : Bytes) :
    readMoreFields (fuel + 1) room (0x2C :: 0x22 :: (stringTail name ++ 0x3A :: input)) =
      readValue fuel room input >>= fun (v, rest) =>
        readMoreFields fuel room rest >>= fun (fields, rest) =>
          .ok ((name, v) :: fields, rest) := by
  rw [readMoreFields, skipSpace_cons rfl]
  dsimp only
  rw [if_neg (by decide), if_neg (by decide), skipSpace_cons rfl]
  dsimp only
  rw [if_neg (by decide), fieldName_stringTail]
  rfl

/-! ## Written values -/

theorem length_encode_pos (v : Value) : 0 < v.encode.length := by
  obtain ⟨b, after, heq, -⟩ := begins_encode v
  rw [heq]
  exact Nat.succ_pos _

mutual

/-- A written value is read to its end if its brackets nest no deeper than may be, and else is too
deep. -/
theorem readValue_encode (v : Value) {fuel room : Nat} (hfuel : 2 * v.encode.length ≤ fuel)
    {rest : Bytes} (hrest : EndsValue rest) :
    ReadsWithin v.depth room (readValue fuel room (v.encode ++ rest)) (v.readBack, rest) := by
  have hlength := length_encode_pos v
  obtain ⟨fuel, rfl⟩ := Nat.exists_eq_add_one.2 (show 0 < fuel by omega)
  cases v with
  | null =>
    have hhead : head (Value.null.encode ++ rest) = .ok (.scalar .null rest) := rfl
    rw [readValue_scalar hhead]
    exact ReadsWithin.ok room _
  | boolean b =>
    have hhead : head ((Value.boolean b).encode ++ rest) = .ok (.scalar (.boolean b) rest) := by
      cases b <;> rfl
    rw [readValue_scalar hhead]
    exact ReadsWithin.ok room _
  | number n =>
    rw [readValue_scalar (head_number n hrest)]
    exact ReadsWithin.ok room _
  | string s =>
    rw [readValue_scalar (head_string s rest)]
    exact ReadsWithin.ok room _
  | array items =>
    rw [encode_array] at hfuel ⊢
    rw [List.length_cons] at hfuel
    rw [List.cons_append, readValue_list]
    refine ReadsWithin.bracket fun _ => ?_
    exact (readItems_inside items (by omega) rest).map rfl
  | object fields =>
    rw [encode_object] at hfuel ⊢
    rw [List.length_cons] at hfuel
    rw [List.cons_append, readValue_map]
    refine ReadsWithin.bracket fun _ => ?_
    exact (readFields_inside fields (by omega) rest).map rfl

/-- So are the items of a list. -/
theorem readItems_inside (items : List Value) {fuel room : Nat}
    (hfuel : 2 * (itemsInside items).length < fuel) (rest : Bytes) :
    ReadsWithin (Value.itemsDepth items) room (readItems fuel room (itemsInside items ++ rest))
      (Value.readBackItems items, rest) := by
  obtain ⟨fuel, rfl⟩ := Nat.exists_eq_add_one.2 (Nat.lt_of_le_of_lt (Nat.zero_le _) hfuel)
  cases items with
  | nil =>
    rw [itemsInside, List.singleton_append, readItems_end]
    exact ReadsWithin.ok room _
  | cons v items =>
    rw [itemsInside, List.length_append] at hfuel
    rw [itemsInside, List.append_assoc, readItems_encode]
    refine (readValue_encode v (by omega) (endsValue_itemsTail items rest)).bind ?_
    exact (readMoreItems_itemsTail items (by omega) rest).map rfl

/-- So are the items behind an item. -/
theorem readMoreItems_itemsTail (items : List Value) {fuel room : Nat}
    (hfuel : 2 * (itemsTail items).length ≤ fuel) (rest : Bytes) :
    ReadsWithin (Value.itemsDepth items) room (readMoreItems fuel room (itemsTail items ++ rest))
      (Value.readBackItems items, rest) := by
  cases items with
  | nil =>
    obtain ⟨fuel, rfl⟩ := Nat.exists_eq_add_one.2 (Nat.lt_of_lt_of_le (by decide) hfuel)
    rw [itemsTail, List.singleton_append, readMoreItems_end]
    exact ReadsWithin.ok room _
  | cons v items =>
    rw [itemsTail, List.length_cons, List.length_append] at hfuel
    obtain ⟨fuel, rfl⟩ := Nat.exists_eq_add_one.2 (show 0 < fuel by omega)
    rw [itemsTail, List.cons_append, List.append_assoc, readMoreItems_encode]
    refine (readValue_encode v (by omega) (endsValue_itemsTail items rest)).bind ?_
    exact (readMoreItems_itemsTail items (by omega) rest).map rfl

/-- So are the fields of an object. -/
theorem readFields_inside (fields : List (String × Value)) {fuel room : Nat}
    (hfuel : 2 * (fieldsInside fields).length < fuel) (rest : Bytes) :
    ReadsWithin (Value.fieldsDepth fields) room (readFields fuel room (fieldsInside fields ++ rest))
      (Value.readBackFields fields, rest) := by
  obtain ⟨fuel, rfl⟩ := Nat.exists_eq_add_one.2 (Nat.lt_of_le_of_lt (Nat.zero_le _) hfuel)
  cases fields with
  | nil =>
    rw [fieldsInside, List.singleton_append, readFields_end]
    exact ReadsWithin.ok room _
  | cons e fields =>
    obtain ⟨name, v⟩ := e
    simp only [fieldsInside, List.length_cons, List.length_append] at hfuel
    simp only [fieldsInside, List.cons_append, List.append_assoc]
    rw [readFields_named]
    refine (readValue_encode v (by omega) (endsValue_fieldsTail fields rest)).bind ?_
    exact (readMoreFields_fieldsTail fields (by omega) rest).map rfl

/-- So are the fields behind a field. -/
theorem readMoreFields_fieldsTail (fields : List (String × Value)) {fuel room : Nat}
    (hfuel : 2 * (fieldsTail fields).length ≤ fuel) (rest : Bytes) :
    ReadsWithin (Value.fieldsDepth fields) room
      (readMoreFields fuel room (fieldsTail fields ++ rest))
      (Value.readBackFields fields, rest) := by
  cases fields with
  | nil =>
    obtain ⟨fuel, rfl⟩ := Nat.exists_eq_add_one.2 (Nat.lt_of_lt_of_le (by decide) hfuel)
    rw [fieldsTail, List.singleton_append, readMoreFields_end]
    exact ReadsWithin.ok room _
  | cons e fields =>
    obtain ⟨name, v⟩ := e
    simp only [fieldsTail, List.length_cons, List.length_append] at hfuel
    obtain ⟨fuel, rfl⟩ := Nat.exists_eq_add_one.2 (show 0 < fuel by omega)
    simp only [fieldsTail, List.cons_append, List.append_assoc]
    rw [readMoreFields_named]
    refine (readValue_encode v (by omega) (endsValue_fieldsTail fields rest)).bind ?_
    exact (readMoreFields_fieldsTail fields (by omega) rest).map rfl

end

/-! ## Whole texts -/

theorem complete_of_readsWithin {α : Type} {depth room : Nat} {text : Bytes}
    {reader : Bytes → Reading (α × Bytes)} {a : α}
    (h : ReadsWithin depth room (reader text) (a, [])) :
    (depth ≤ room → complete text reader = .ok a) ∧
      (room < depth → ∃ f, complete text reader = .error f ∧ f.cause = .tooDeep) := by
  constructor
  · intro hle
    rw [complete, h.1 hle]
    rfl
  · intro hlt
    obtain ⟨s, hs, hcause⟩ := h.2 hlt
    refine ⟨s.locate text, ?_, hcause⟩
    rw [complete, hs]
    rfl

theorem readsWithin_complete (v : Value) (room : Nat) :
    ReadsWithin v.depth room (readValue (enough v.encode) room v.encode) (v.readBack, []) := by
  have hfuel : 2 * v.encode.length ≤ enough v.encode := Nat.le_add_right _ 2
  have hread : ReadsWithin v.depth room (readValue (enough v.encode) room (v.encode ++ []))
      (v.readBack, []) := readValue_encode v hfuel endsValue_nil
  rwa [List.append_nil] at hread

/-- A value that is shallow enough is read from its written form, with the fields of objects put in
order. -/
theorem decode_encode_of_depth_le {v : Value} (h : v.depth ≤ maxDepth) :
    decode v.encode = .ok v.readBack :=
  (complete_of_readsWithin (readsWithin_complete v maxDepth)).1 h

/-- A value in order that is shallow enough is read from its written form. -/
theorem decode_encode {v : Value} (h : v.Within maxDepth) : decode v.encode = .ok v.reread := by
  rw [← Value.readBack_of_isOrdered v h.ordered]
  exact decode_encode_of_depth_le h.depth_le

theorem readsWithin_decodeObject (expected : String) (fields : List (String × Value))
    (hordered : (Value.object fields).IsOrdered) :
    ReadsWithin (Value.fieldsDepth fields) (maxDepth - 1)
      (readObject (enough (Value.object fields).encode) expected (Value.object fields).encode)
      (Value.rereadFields fields, []) := by
  have hfuel : 2 * (fieldsInside fields).length < enough (Value.object fields).encode := by
    rw [encode_object, enough, List.length_cons]
    omega
  have hread : ReadsWithin (Value.fieldsDepth fields) (maxDepth - 1)
      (readFields (enough (Value.object fields).encode) (maxDepth - 1) (fieldsInside fields ++ []))
      (Value.readBackFields fields, []) := readFields_inside fields hfuel []
  rw [List.append_nil] at hread
  rw [encode_object] at hread ⊢
  refine hread.map ?_
  dsimp only
  rw [Value.readBackFields_of_isOrdered fields hordered.2,
    Keyed.ofList_of_isSorted (Value.isSorted_rereadFields hordered.1)]

/-- The fields of a written object are read, if they are shallow enough. -/
theorem decodeObject_encode (expected : String) {fields : List (String × Value)}
    (h : (Value.object fields).Within maxDepth) :
    decodeObject expected (Value.object fields).encode = .ok (Value.rereadFields fields) := by
  have hread := readsWithin_decodeObject expected fields h.ordered
  exact (complete_of_readsWithin hread).1 (Nat.le_of_succ_le_succ h.depth_le)

theorem decodeObject_encode_of_depth_lt (expected : String) {fields : List (String × Value)}
    (hordered : (Value.object fields).IsOrdered) (h : maxDepth < (Value.object fields).depth) :
    ∃ f, decodeObject expected (Value.object fields).encode = .error f ∧ f.cause = .tooDeep := by
  have hread := readsWithin_decodeObject expected fields hordered
  exact (complete_of_readsWithin hread).2 (Nat.lt_of_succ_lt_succ h)

/-! ## Brackets as deep as they come -/

mutual

/-- Every bracket of a value takes an octet of its written form. -/
theorem depth_le_length_encode (v : Value) : v.depth ≤ v.encode.length := by
  cases v with
  | array items =>
    rw [encode_array, List.length_cons, Value.depth]
    exact Nat.succ_le_succ (itemsDepth_le_length_inside items)
  | object fields =>
    rw [encode_object, List.length_cons, Value.depth]
    exact Nat.succ_le_succ (fieldsDepth_le_length_inside fields)
  | _ => exact Nat.zero_le _

theorem itemsDepth_le_length (items : List Value) :
    Value.itemsDepth items ≤ (itemsTail items).length := by
  cases items with
  | nil => exact Nat.zero_le _
  | cons v items =>
    have hv := depth_le_length_encode v
    have hitems := itemsDepth_le_length items
    rw [Value.itemsDepth, itemsTail, List.length_cons, List.length_append]
    omega

theorem itemsDepth_le_length_inside (items : List Value) :
    Value.itemsDepth items ≤ (itemsInside items).length := by
  cases items with
  | nil => exact Nat.zero_le _
  | cons v items =>
    have hv := depth_le_length_encode v
    have hitems := itemsDepth_le_length items
    rw [Value.itemsDepth, itemsInside, List.length_append]
    omega

theorem fieldsDepth_le_length (fields : List (String × Value)) :
    Value.fieldsDepth fields ≤ (fieldsTail fields).length := by
  cases fields with
  | nil => exact Nat.zero_le _
  | cons e fields =>
    obtain ⟨name, v⟩ := e
    have hv := depth_le_length_encode v
    have hfields := fieldsDepth_le_length fields
    simp only [Value.fieldsDepth, fieldsTail, List.length_cons, List.length_append]
    omega

theorem fieldsDepth_le_length_inside (fields : List (String × Value)) :
    Value.fieldsDepth fields ≤ (fieldsInside fields).length := by
  cases fields with
  | nil => exact Nat.zero_le _
  | cons e fields =>
    obtain ⟨name, v⟩ := e
    have hv := depth_le_length_encode v
    have hfields := fieldsDepth_le_length fields
    simp only [Value.fieldsDepth, fieldsInside, List.length_cons, List.length_append]
    omega

end

/-- The value that a text spells, brackets followed as deep as they come. -/
def readDeep (text : Bytes) : Except Fault Value :=
  complete text (readValue (enough text) text.length)

/-- Whatever is written is read, with the fields of every object put in order. -/
theorem readDeep_encode (v : Value) : readDeep v.encode = .ok v.readBack :=
  (complete_of_readsWithin (readsWithin_complete v v.encode.length)).1 (depth_le_length_encode v)

end RecordBoard.Json
