import RecordBoard.Proofs.Delivery.Mapping
import RecordBoard.Proofs.Record.Completed

/-!
# What a record is told apart by

A record may name its key outright.  One that does not is told apart by its type and its id, each of
which is a text or a number.  The type stands in one of two fields, and the first of them that is
usable counts. What is missing, empty or of another kind says nothing.

The key is then the type and the id with a colon between them.  Neither of the two is escaped and
both may hold colons, so a key that holds more than one colon can be cut at any of them.  Two pairs
make the same key if and only if they are the same pair, or cut one key at two of its colons.  Types
with equally many colons, such as those with none, never do the latter.

## Main definitions

* `Record.Says`, `Record.HasType` — the texts and the type that the fields of a record say.
* `Record.IsIdentity` — a record names no key, and this type and this id tell it apart.
* `Recut`, `SharesKey` — one pair cuts the key of another at an earlier colon; two pairs make one
  key.

## Main results

* `composedKey_eq_iff` — which pairs make the same key.
* `keyPrefix?_composedKey_eq_some_iff` — what is in front of the first colon of such a key.
* `Record.derivedKey?_eq_some_iff` — the key that a record without a name asks for.
-/

namespace RecordBoard

open Json (Value Number)
open Delivery (IsIdentifier usableText?_eq_some_iff)

/-! ## Keys with colons -/

/-- The first pair cuts the key of the second one at an earlier colon, which lies within the second
type. -/
def Recut (entityType id entityType' id' : String) : Prop :=
  ∃ between, entityType' = entityType ++ ":" ++ between ∧ id = between ++ ":" ++ id'

/-- Two pairs make the same key. -/
inductive SharesKey (entityType id : String) : String → String → Prop
  /-- They are the same, -/
  | same : SharesKey entityType id entityType id
  /-- or the first one cuts the key at an earlier colon, -/
  | earlier {entityType' id' : String} (h : Recut entityType id entityType' id') :
      SharesKey entityType id entityType' id'
  /-- or the second one does. -/
  | later {entityType' id' : String} (h : Recut entityType' id' entityType id) :
      SharesKey entityType id entityType' id'

theorem toList_composedKey (entityType id : String) :
    (composedKey entityType id).toList = entityType.toList ++ ':' :: id.toList := by
  rw [composedKey, String.toList_append, String.toList_append, List.append_assoc]
  rfl

theorem recut_iff_toList {entityType id entityType' id' : String} :
    Recut entityType id entityType' id' ↔ ∃ between,
      entityType'.toList = entityType.toList ++ ':' :: between ∧
      id.toList = between ++ ':' :: id'.toList := by
  constructor
  · rintro ⟨between, rfl, rfl⟩
    exact ⟨between.toList, toList_composedKey _ _, toList_composedKey _ _⟩
  · rintro ⟨between, htype, hid⟩
    refine ⟨String.ofList between, String.toList_inj.1 ?_, String.toList_inj.1 ?_⟩
    · rw [htype]
      exact ((toList_composedKey _ _).trans (by rw [String.toList_ofList])).symm
    · rw [hid]
      exact ((toList_composedKey _ _).trans (by rw [String.toList_ofList])).symm

/-- Where the key of one pair goes on from the type of the other, the two are the same or this is
cut earlier. -/
theorem same_or_recut {entityType id entityType' id' : String} {rest : List Char}
    (htype : entityType'.toList = entityType.toList ++ rest)
    (hid : ':' :: id.toList = rest ++ ':' :: id'.toList) :
    entityType = entityType' ∧ id = id' ∨ Recut entityType id entityType' id' := by
  cases rest with
  | nil =>
    rw [List.append_nil, String.toList_inj] at htype
    exact .inl ⟨htype.symm, String.toList_inj.1 (List.cons.inj hid).2⟩
  | cons c between =>
    obtain ⟨rfl, hback⟩ := List.cons.inj hid
    exact .inr (recut_iff_toList.2 ⟨between, htype, hback⟩)

/-- These are all the ways in which two pairs make the same key. -/
theorem composedKey_eq_iff {entityType id entityType' id' : String} :
    composedKey entityType id = composedKey entityType' id' ↔
      SharesKey entityType id entityType' id' := by
  constructor
  · intro h
    rw [← String.toList_inj, toList_composedKey, toList_composedKey, List.append_eq_append_iff] at h
    rcases h with ⟨rest, htype, hid⟩ | ⟨rest, htype, hid⟩
    · rcases same_or_recut htype hid with ⟨rfl, rfl⟩ | hcut
      · exact .same
      · exact .earlier hcut
    · rcases same_or_recut htype hid with ⟨rfl, rfl⟩ | hcut
      · exact .same
      · exact .later hcut
  · rintro (_ | ⟨between, rfl, rfl⟩ | ⟨between, rfl, rfl⟩)
    · rfl
    · simp only [composedKey, String.append_assoc]
    · simp only [composedKey, String.append_assoc]

/-- An earlier cut leaves fewer colons in the type. -/
theorem Recut.count_lt {entityType id entityType' id' : String}
    (h : Recut entityType id entityType' id') :
    entityType.toList.count ':' < entityType'.toList.count ':' := by
  obtain ⟨between, htype, -⟩ := recut_iff_toList.1 h
  rw [htype, List.count_append, List.count_cons_self]
  omega

/-- So types with equally many colons are told apart. -/
theorem composedKey_eq_iff_of_count {entityType id entityType' id' : String}
    (h : entityType.toList.count ':' = entityType'.toList.count ':') :
    composedKey entityType id = composedKey entityType' id' ↔ entityType = entityType' ∧
    id = id' := by
  rw [composedKey_eq_iff]
  constructor
  · rintro (_ | hcut | hcut)
    · exact ⟨rfl, rfl⟩
    · exact absurd h (Nat.ne_of_lt hcut.count_lt)
    · exact absurd h (Nat.ne_of_gt hcut.count_lt)
  · rintro ⟨rfl, rfl⟩
    exact .same

/-- What is found in front of the first colon of a key, if it is not empty. -/
theorem Record.keyPrefix?_eq_some_iff {key front : String} :
    keyPrefix? key = some front ↔
      front ≠ "" ∧ ':' ∉ front.toList ∧ ∃ rest, key = composedKey front rest := by
  constructor
  · intro h
    unfold keyPrefix? at h
    dsimp only at h
    split at h
    next hfound =>
      have hfront : String.ofList (key.toList.takeWhile (· != ':')) = front := Option.some.inj h
      have hwhole : key.toList.takeWhile (· != ':') ++ key.toList.dropWhile (· != ':') =
          key.toList :=
        List.takeWhile_append_dropWhile
      have hbefore : ∀ c ∈ key.toList.takeWhile (· != ':'), (c != ':') = true :=
        List.all_eq_true.1 List.all_takeWhile
      have hhead := List.head?_dropWhile_not (· != ':') key.toList
      obtain ⟨hmem, hne⟩ := hfound
      generalize key.toList.takeWhile (· != ':') = taken at hfront hwhole hbefore hne
      have hcolon : ':' ∉ taken := fun hin => absurd (hbefore ':' hin) (by decide)
      cases hrest : key.toList.dropWhile (· != ':') with
      | nil =>
        rw [hrest, List.append_nil] at hwhole
        rw [hwhole] at hcolon
        exact absurd hmem hcolon
      | cons c rest =>
        rw [hrest] at hwhole hhead
        have hc : c = ':' := by simpa using hhead
        subst hc hfront
        rw [String.toList_ofList]
        refine ⟨?_, hcolon, String.ofList rest, String.toList_inj.1 ?_⟩
        · intro hempty
          exact hne (by rw [← String.toList_ofList (l := taken), hempty]; rfl)
        · rw [toList_composedKey, String.toList_ofList, String.toList_ofList, hwhole]
    next => cases h
  · rintro ⟨hne, hcolon, rest, rfl⟩
    have hfront : ∀ c ∈ front.toList, (c != ':') = true := by
      intro c hc
      rw [bne_iff_ne]
      rintro rfl
      exact hcolon hc
    have htaken : (composedKey front rest).toList.takeWhile (· != ':') = front.toList := by
      rw [toList_composedKey, List.takeWhile_append_of_pos hfront]
      simp
    have hmem : ':' ∈ (composedKey front rest).toList := by
      rw [toList_composedKey]
      simp
    unfold keyPrefix?
    dsimp only
    rw [htaken, if_pos ⟨hmem, mt String.toList_eq_nil_iff.1 hne⟩, String.ofList_toList]

/-- In front of the first colon of a key is what is in front of the first colon of the type. -/
theorem keyPrefix?_composedKey_eq_some_iff {entityType id front : String} :
    Record.keyPrefix? (composedKey entityType id) = some front ↔
      front ≠ "" ∧ ':' ∉ front.toList ∧
        (entityType = front ∨ ∃ between, entityType = composedKey front between) := by
  rw [Record.keyPrefix?_eq_some_iff]
  refine and_congr_right fun _ => and_congr_right fun hcolon => ?_
  constructor
  · rintro ⟨rest, hkey⟩
    rcases composedKey_eq_iff.1 hkey with _ | ⟨between, htype, -⟩ | ⟨between, htype, -⟩
    · exact .inl rfl
    · refine absurd ?_ hcolon
      rw [htype, ← composedKey, toList_composedKey]
      simp
    · exact .inr ⟨between, htype⟩
  · rintro (rfl | ⟨between, rfl⟩)
    · exact ⟨id, rfl⟩
    · exact ⟨composedKey between id, composedKey_eq_iff.2 (.later ⟨between, rfl, rfl⟩)⟩

/-- So it is the type if and only if there is no colon in the type. -/
theorem keyPrefix?_composedKey_eq_self_iff {entityType id : String} (h : entityType ≠ "") :
    Record.keyPrefix? (composedKey entityType id) = some entityType ↔ ':' ∉ entityType.toList := by
  rw [keyPrefix?_composedKey_eq_some_iff]
  constructor
  · rintro ⟨-, hcolon, -⟩
    exact hcolon
  · intro hcolon
    exact ⟨h, hcolon, .inl rfl⟩

theorem Json.Number.text_ne_empty (n : Number) : n.text ≠ "" := by
  intro h
  cases n with
  | integer i fits =>
    have hread := Json.ofBytes_integer fits Json.endsValue_nil
    rw [h] at hread
    cases hread
  | double d =>
    have hread := Json.Numeral.ofBytes_encode_text d Json.endsValue_nil
    rw [show d.text = "" from h] at hread
    cases hread

namespace Record

/-! ## Fields -/

/-- A field of the record says a text: it is a string that is not empty, or a number, which counts
by its written form. -/
def Says (field text : String) (r : Record) : Prop :=
  ∃ v, r.get? field = some v ∧ IsIdentifier v text

/-- The type of the record, which stands in the first of two fields that says anything. -/
inductive HasType (r : Record) : String → Prop
  /-- It stands in its own field, -/
  | own {entityType : String} (h : r.Says "entity_type" entityType) : HasType r entityType
  /-- or in the other one, if its own says nothing. -/
  | alias {entityType : String} (hown : ∀ text, ¬ r.Says "entity_type" text)
      (h : r.Says "type" entityType) : HasType r entityType

/-- The record names no key, and this type and this id tell it apart. -/
structure IsIdentity (entityType id : String) (r : Record) : Prop where
  /-- It names no key that is not empty. -/
  unnamed : ∀ text, r.get? "key" = some (.string text) → text = ""
  /-- It has the type, or it has none and the type is the one that stands in. -/
  type : r.HasType entityType ∨ (∀ text, ¬ r.HasType text) ∧ entityType = "task"
  /-- It has the id. -/
  id : r.Says "id" id

theorem text?_eq_some_iff {r : Record} {field text : String} :
    r.text? field = some text ↔ r.Says field text := by
  rw [text?, Says, Option.bind_eq_some_iff]
  exact exists_congr fun v => and_congr_right fun _ => usableText?_eq_some_iff

theorem text?_eq_none_iff {r : Record} {field : String} :
    r.text? field = none ↔ ∀ text, ¬ r.Says field text := by
  simp only [Option.eq_none_iff_forall_not_mem, Option.mem_def, text?_eq_some_iff]

theorem entityType?_eq_some_iff {r : Record} {entityType : String} :
    r.entityType? = some entityType ↔ r.HasType entityType := by
  unfold entityType?
  constructor
  · intro h
    cases hown : r.text? "entity_type" with
    | some own =>
      rw [hown] at h
      cases h
      exact .own (text?_eq_some_iff.1 hown)
    | none =>
      rw [hown] at h
      exact .alias (text?_eq_none_iff.1 hown) (text?_eq_some_iff.1 h)
  · rintro (h | ⟨hown, h⟩)
    · rw [text?_eq_some_iff.2 h]
      rfl
    · rw [text?_eq_none_iff.2 hown, text?_eq_some_iff.2 h]
      rfl

theorem entityType?_eq_none_iff {r : Record} : r.entityType? = none ↔ ∀ text, ¬ r.HasType text := by
  simp only [Option.eq_none_iff_forall_not_mem, Option.mem_def, entityType?_eq_some_iff]

theorem key?_eq_some_iff {r : Record} {key : String} :
    r.key? = some key ↔ r.get? "key" = some (.string key) ∧ key ≠ "" := by
  rw [key?, Option.filter_eq_some_iff, Option.bind_eq_some_iff, bne_iff_ne]
  refine and_congr_left fun _ => ?_
  constructor
  · rintro ⟨v, hv, htext⟩
    cases v <;> cases htext
    exact hv
  · intro h
    exact ⟨_, h, rfl⟩

theorem key?_eq_none_iff {r : Record} :
    r.key? = none ↔ ∀ text, r.get? "key" = some (.string text) → text = "" := by
  simp only [Option.eq_none_iff_forall_not_mem, Option.mem_def, key?_eq_some_iff, not_and, ne_eq,
    Decidable.not_not]

/-- A text that a field says is not empty. -/
theorem Says.ne_empty {r : Record} {field text : String} (h : r.Says field text) : text ≠ "" := by
  obtain ⟨v, -, n | ⟨s, hs⟩⟩ := h
  · exact Number.text_ne_empty n
  · exact hs

theorem HasType.ne_empty {r : Record} {entityType : String} (h : r.HasType entityType) :
    entityType ≠ "" := by
  rcases h with h | ⟨-, h⟩
  · exact h.ne_empty
  · exact h.ne_empty

theorem IsIdentity.ne_empty {r : Record} {entityType id : String} (h : r.IsIdentity entityType id) :
    entityType ≠ "" := by
  rcases h.type with htype | ⟨-, rfl⟩
  · exact htype.ne_empty
  · decide

theorem getD_entityType?_eq_iff {r : Record} {entityType : String} :
    r.entityType?.getD "task" = entityType ↔
      r.HasType entityType ∨ (∀ text, ¬ r.HasType text) ∧ entityType = "task" := by
  rw [← entityType?_eq_none_iff, ← entityType?_eq_some_iff]
  cases r.entityType? with
  | none => simp [eq_comm]
  | some own => simp

theorem isIdentity_iff {r : Record} {entityType id : String} :
    r.IsIdentity entityType id ↔
      r.key? = none ∧ r.entityType?.getD "task" = entityType ∧ r.id? = some id := by
  rw [key?_eq_none_iff, getD_entityType?_eq_iff, id?, text?_eq_some_iff]
  exact ⟨fun h => ⟨h.unnamed, h.type, h.id⟩, fun h => ⟨h.1, h.2.1, h.2.2⟩⟩

/-- A record is told apart by one type and one id. -/
theorem IsIdentity.unique {r : Record} {entityType id entityType' id' : String}
    (h : r.IsIdentity entityType id) (h' : r.IsIdentity entityType' id') :
    entityType = entityType' ∧ id = id' := by
  obtain ⟨-, htype, hid⟩ := isIdentity_iff.1 h
  obtain ⟨-, htype', hid'⟩ := isIdentity_iff.1 h'
  exact ⟨htype.symm.trans htype', Option.some.inj (hid.symm.trans hid')⟩

/-- What tells a record apart tells the completed one apart. -/
theorem IsIdentity.completed {r : Record} {entityType id : String}
    (h : r.IsIdentity entityType id) :
    (r.completed id).IsIdentity entityType id := by
  obtain ⟨hkey, htype, hid⟩ := isIdentity_iff.1 h
  refine isIdentity_iff.2 ⟨by rw [key?_completed, hkey], ?_, id?_completed (.inl hid)⟩
  rw [entityType?_completed, Option.getD_some, htype]

/-- A record without a name asks for the key that its type and its id make. -/
theorem derivedKey?_eq_some_iff {r : Record} (h : r.key? = none) {key : String} :
    r.derivedKey? "task" = some key ↔
      ∃ entityType id, r.IsIdentity entityType id ∧ key = composedKey entityType id := by
  have hderived : r.derivedKey? "task" = r.id?.map (composedKey (r.entityType?.getD "task")) := by
    rw [derivedKey?, h]
    rfl
  rw [hderived, Option.map_eq_some_iff]
  constructor
  · rintro ⟨id, hid, rfl⟩
    exact ⟨_, id, isIdentity_iff.2 ⟨h, rfl, hid⟩, rfl⟩
  · rintro ⟨entityType, id, hidentity, rfl⟩
    obtain ⟨-, htype, hid⟩ := isIdentity_iff.1 hidentity
    exact ⟨id, hid, by rw [htype]⟩

theorem IsIdentity.derivedKey?_eq {r : Record} {entityType id : String}
    (h : r.IsIdentity entityType id) :
    r.derivedKey? "task" = some (composedKey entityType id) :=
  (derivedKey?_eq_some_iff (key?_eq_none_iff.2 h.unnamed)).2 ⟨entityType, id, h, rfl⟩

end Record

end RecordBoard
