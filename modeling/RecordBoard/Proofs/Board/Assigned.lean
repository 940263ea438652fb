import RecordBoard.Proofs.Board.Put
import RecordBoard.Proofs.Record.Identity
import RecordBoard.Proofs.Store.Upsert

/-!
# Which key a record is given

A record that is to be made may name its key.  Else a key is found for it, and what was missing for
that is written into the record: a type if it has none in either field, and an id if it has none.
So the record says by itself where it is, in both cases and in the same way as it is read at any
other place.

Nothing else is written into it but what is stamped.  A field that is there and says nothing, such
as an empty type, is left as it is unless it is the one that is written.

## Main definitions

* `IsGivenId` — the id that a record is given.
* `IsCompleted` — a record was made of one that names no key.
* `Confirms` — a record confirms the key that it was given.

## Main results

* `exists_of_assigned` — what is assigned to a record that names no key.
* `derivedKey?_of_assigned` — a record that is made asks for its key.
* `confirms_of_assigned` — what is stored of it confirms the key.
* `created_key_is_confirmed` — the record in the answer to a request that makes one confirms its
  key.
-/

namespace RecordBoard

open Json (Value)

namespace Board

open Record (stampedFields)
open Store (Backend Table)
open Http (Request)

/-- What was stored was made of a record that names no key, with this type and this id. -/
structure IsCompleted (random : Option Bytes) (asked stored : Record) (entityType id : String) :
    Prop where
  /-- The record names no key that is not empty. -/
  unnamed : ∀ text, asked.get? "key" = some (.string text) → text = ""
  /-- It has the type, or it has none and the type that stands in was written. -/
  typed : asked.HasType entityType ∨ (∀ text, ¬ asked.HasType text) ∧
    entityType = "task" ∧ stored.get? "entity_type" = some (.string "task")
  /-- It has the id, or it has none and the digits of the random octets were written. -/
  identified : asked.Says "id" id ∨ (∀ text, ¬ asked.Says "id" text) ∧
    stored.get? "id" = some (.string id) ∧ ∃ octets, random = some octets ∧ Hex.Writes id octets
  /-- All fields but these two and those that are stamped are as they were, and so are these two
  unless they were written. -/
  kept : ∀ field ∉ stampedFields, (field = "entity_type" → ∃ text, asked.HasType text) →
    (field = "id" → ∃ text, asked.Says "id" text) → stored.get? field = asked.get? field
  /-- What was stored is read with this type, -/
  readsType : stored.entityType? = some entityType
  /-- and with this id. -/
  readsId : stored.id? = some id

/-- What was stored confirms its key. -/
inductive Confirms (random : Option Bytes) (asked stored : Record) : String → Prop
  /-- The key was named, and all fields but those that are stamped are as they were. -/
  | named {key : String} (hkey : asked.get? "key" = some (.string key)) (hne : key ≠ "")
      (hkept : ∀ field ∉ stampedFields, stored.get? field = asked.get? field) :
      Confirms random asked stored key
  /-- The key is made of the type and the id. -/
  | composed {entityType id : String} (h : IsCompleted random asked stored entityType id) :
      Confirms random asked stored (entityType ++ ":" ++ id)

/-! ## Assignments -/

/-- The id that a record is given. -/
inductive IsGivenId (random : Option Bytes) (asked : Record) : String → Prop
  /-- It is the one that the record has, -/
  | own {id : String} (h : asked.id? = some id) : IsGivenId random asked id
  /-- or if it has none, the digits of the four random octets. -/
  | digits {octets : Bytes} (hnone : asked.id? = none) (hoctets : random = some octets)
      (hfour : octets.length = 4) : IsGivenId random asked (Hex.encode octets)

theorem IsGivenId.id?_completed {random : Option Bytes} {asked : Record} {id : String}
    (h : IsGivenId random asked id) : (asked.completed id).id? = some id := by
  apply Record.id?_completed
  rcases h with hid | ⟨hnone, -, hfour⟩
  · exact .inl hid
  · refine .inr ⟨hnone, fun hempty => ?_⟩
    -- four octets have eight digits
    have hlength := (Hex.writes_encode _).length.trans (congrArg (2 * ·) hfour)
    rw [hempty] at hlength
    cases hlength

section Assignments

variable {random : Option Bytes} {asked record : Record} {key : String}

/-- One that is told apart by a type and an id goes where these say. -/
theorem assigned_of_isIdentity (random : Option Bytes) {entityType id : String}
    (h : asked.IsIdentity entityType id) :
    assigned random asked = .ok (composedKey entityType id, asked.completed id) := by
  obtain ⟨hkey, htype, hid⟩ := Record.isIdentity_iff.1 h
  rw [assigned_of_unnamed random hkey, hid, htype]
  rfl

/-- One that is not is completed by the id that it is given. -/
theorem exists_of_assigned (h : assigned random asked = .ok (key, record))
    (hkey : asked.key? = none) (hrandom : ∀ octets, random = some octets → octets.length = 4) :
    ∃ id, IsGivenId random asked id ∧ key = composedKey (asked.entityType?.getD "task") id ∧
      record = asked.completed id := by
  rw [assigned_of_unnamed random hkey] at h
  cases hid : asked.id? with
  | some id =>
    rw [hid] at h
    cases h
    exact ⟨id, .own hid, rfl, rfl⟩
  | none =>
    rw [hid] at h
    cases random with
    | none => cases h
    | some octets =>
      cases h
      exact ⟨_, .digits hid rfl (hrandom octets rfl), rfl, rfl⟩

/-- A record that is made asks for the key that it was given. -/
theorem derivedKey?_of_assigned (h : assigned random asked = .ok (key, record))
    (hrandom : ∀ octets, random = some octets → octets.length = 4) :
    record.derivedKey? "task" = some key := by
  cases hkey : asked.key? with
  | some named =>
    rw [assigned_of_key random hkey] at h
    cases h
    rw [Record.derivedKey?, hkey]
    rfl
  | none =>
    obtain ⟨id, hid, rfl, rfl⟩ := exists_of_assigned h hkey hrandom
    rw [Record.derivedKey?, Record.key?_completed, hkey, hid.id?_completed,
      Record.entityType?_completed]
    rfl

/-- What is stored of a completed record says the type and the id that its key is made of. -/
theorem isCompleted_of_completed {id : String} {stored : Record} (hkey : asked.key? = none)
    (hid : IsGivenId random asked id)
    (hothers : ∀ field ∉ stampedFields, stored.get? field = (asked.completed id).get? field) :
    IsCompleted random asked stored (asked.entityType?.getD "task") id where
  unnamed := Record.key?_eq_none_iff.1 hkey
  typed := by
    cases htype : asked.entityType? with
    | some entityType => exact .inl (Record.entityType?_eq_some_iff.1 htype)
    | none =>
      refine .inr ⟨Record.entityType?_eq_none_iff.1 htype, rfl, ?_⟩
      rw [hothers _ (by decide), Record.get?_completed, if_neg (by simp), if_pos ⟨rfl, htype⟩]
  identified := by
    rcases hid with hid | ⟨hid, hoctets, -⟩
    · exact .inl (Record.text?_eq_some_iff.1 hid)
    · refine .inr ⟨Record.text?_eq_none_iff.1 hid, ?_, _, hoctets, Hex.writes_encode _⟩
      rw [hothers _ (by decide), Record.get?_completed, if_pos ⟨rfl, hid⟩]
  kept field hfield htype hid' := by
    rw [hothers field hfield, Record.get?_completed, if_neg, if_neg]
    · rintro ⟨hfield, hnone⟩
      obtain ⟨text, htext⟩ := htype hfield
      exact Record.entityType?_eq_none_iff.1 hnone text htext
    · rintro ⟨hfield, hnone⟩
      obtain ⟨text, htext⟩ := hid' hfield
      exact Record.text?_eq_none_iff.1 hnone text htext
  readsType := by
    rw [← Record.entityType?_completed id asked]
    exact Record.entityType?_congr (hothers _ (by decide)) (hothers _ (by decide))
  readsId := by
    rw [← hid.id?_completed]
    exact Record.text?_congr (hothers _ (by decide))

/-- What is stored of a record under the key that is assigned to it confirms that key. -/
theorem confirms_of_assigned {stored : Record} (h : assigned random asked = .ok (key, record))
    (hrandom : ∀ octets, random = some octets → octets.length = 4)
    (hothers : ∀ field ∉ stampedFields, stored.get? field = record.get? field) :
    Confirms random asked stored key := by
  cases hkey : asked.key? with
  | some named =>
    rw [assigned_of_key random hkey] at h
    cases h
    obtain ⟨hfield, hne⟩ := Record.key?_eq_some_iff.1 hkey
    exact .named hfield hne hothers
  | none =>
    obtain ⟨id, hid, rfl, rfl⟩ := exists_of_assigned h hkey hrandom
    exact .composed (isCompleted_of_completed hkey hid hothers)

end Assignments

/--
**A record that was made confirms its key.**  Let a request that makes a record be answered with
status 201, on any store.  The answer tells a key and a record, and that record is what the store
was given for that key.  If the body names a key that is not empty, it is that one.  Else it is made
of the type and the id that the record in the answer is read with: those of the body, or the type
`task` and the digits of the four random octets where the body has none.  What was missing was
written into the record; apart from that and the stamps its fields are those of the body.  In both
cases the record asks for the key by itself.
-/
theorem created_key_is_confirmed (board : Board) (b : Backend) (t : Table) {r : Request}
    (hcreate : AsksToCreate r) (hrandom : ∀ octets, r.random = some octets → octets.length = 4)
    (hstatus : (board.answer b t r).2.status = 201) :
    ∃ (asked stored : Record) (key : String), Record.decode r.body = .ok asked ∧
      (board.answer b t r).2.body = (Value.object [("success", .boolean true), ("key", .string key),
        ("record", stored.toValue)]).text ∧
      b.put key stored.encode t = ((board.answer b t r).1, .ok ()) ∧
      Confirms r.random asked stored key ∧ ∀ entityType,
        stored.derivedKey? entityType = some key := by
  obtain ⟨asked, key, record, stored, hasked, hassigned, hwritten, hbody⟩ :=
    stored_of_create hcreate hstatus
  obtain ⟨previous, -, rfl, hput⟩ := exists_of_upsert hwritten
  have hstamp := Record.isStampOf_stamp key previous (clock r) record
  have hkey : (record.stamp key previous (clock r)).key? = some key :=
    Record.key?_eq_some_iff.2 ⟨hstamp.key, (of_assigned hassigned).1⟩
  refine ⟨asked, _, key, hasked, hbody, hput, confirms_of_assigned hassigned hrandom hstamp.others,
    ?_⟩
  intro entityType
  rw [Record.derivedKey?, hkey]
  rfl

/-- Four octets. -/
def fourOctets : Bytes := [0xde, 0xad, 0xbe, 0xef]

/-- A body without an id, with a type that says nothing and a number under the other name of the
type. -/
def unidentified : String := "\x7b\"entity_type\":null,\"type\":7\x7d"

/-- What the answer tells of it. -/
def unidentifiedTold : String :=
  "\x7b\"success\":true,\"key\":\"7:deadbeef\",\"record\":\x7b\"created_at\":5," ++
    "\"entity_type\":null,\"id\":\"deadbeef\",\"key\":\"7:deadbeef\"," ++
    "\"type\":7,\"updated_at\":5\x7d\x7d"

/-- It is given an id, and its type counts as it is written. -/
theorem unidentified_record_confirms_key :
    ∃ board : Board, Board.ofSettings { ({} : Settings) with apiKey := some "k" } = .ok board ∧
      (board.answer .direct .empty (smallCreate (some fourOctets) unidentified 5)).2.body =
        unidentifiedTold ∧
      ∃ (asked stored : Record) (key : String),
        Record.decode (Utf8.encode unidentified) = .ok asked ∧
        Backend.direct.put key stored.encode .empty =
          ((board.answer .direct .empty (smallCreate (some fourOctets) unidentified 5)).1, .ok ()) ∧
        Confirms (some fourOctets) asked stored key ∧
        ∀ entityType, stored.derivedKey? entityType = some key := by
  have htold : (draftOf? (some fourOctets) unidentified).map (fun draft =>
      (draft.1, (createReply draft (draft.2.stamp draft.1 none (clockSeconds 5))).body.text)) =
        some ("7:deadbeef", unidentifiedTold) := by
    decide +kernel
  obtain ⟨⟨key, record⟩, hdraft, htold⟩ := Option.map_eq_some_iff.1 htold
  obtain ⟨-, htold⟩ := Prod.mk.inj htold
  obtain ⟨board, hboard⟩ := exists_board "k" (by decide)
  obtain ⟨hstatus, hbody, -, -⟩ := answer_of_smallCreate hboard 5 (by decide +kernel) hdraft
    (rfl : Backend.direct.getRecord Table.empty key = .ok none)
  have hrandom : ∀ octets, (smallCreate (some fourOctets) unidentified 5).random = some octets →
      octets.length = 4 := by
    intro octets hoctets
    cases hoctets
    rfl
  obtain ⟨asked, stored, key, hasked, -, hput, hconfirms, hderived⟩ :=
    created_key_is_confirmed board .direct .empty (asksToCreate_smallCreate _ _ _) hrandom hstatus
  exact ⟨board, hboard.settings, hbody.trans htold, asked, stored, key, hasked, hput, hconfirms,
    hderived⟩

end Board

end RecordBoard
