import RecordBoard.Proofs.Board.Untouched
import RecordBoard.Proofs.Delivery.Draft
import RecordBoard.Proofs.Http.Target
import RecordBoard.Proofs.Record.Completed
import RecordBoard.Proofs.Store.Records

/-!
# What requests write

On a store that every call reaches, what a request does to the table is a session of steps that
write: none for a request that is refused or reads, one for a request about one record, and one for
each record of a sync that says where it goes.  The steps of a run in the order they are taken are
its journal, and the table that the run leaves is the one that the session of the journal leaves.

Five requests bring records, and they find the key of a record in five ways.  `Brings` lists them;
what is said of every record that is written is proved by going through that list.

## Main definitions

* `Board.drafts` — the records that a request asks to be written, with their keys.
* `Board.writes` — the steps that a request takes, `Board.journal` those of a run.
* `Board.writeDraft` — what all requests about one record do with what they bring.
* `Board.Brings` — where a record comes from that a request writes.

## Main results

* `answer_eq_session`, `run_eq_session` — tables are what the steps make of them.
* `brings_of_mem_writes` — a step deletes, or it writes a record that its request brings.
* `key_ne_empty_of_brings` — no record goes under the empty key.
* `within_of_brings` — no record that is brought nests deeper than it can be read, an action aside.
* `holds_answer`, `holds_run` — what it takes for requests to preserve a property of records.
-/

namespace RecordBoard.Board

open Json (Value)
open Store (Action Backend Table Step session)
open Http (Request Answer)

/-! ## Drafts -/

/-- The record that takes the place of another. -/
def putDraft (board : Board) (segment : String) (r : Request) : Except Halt (String × Record) := do
  let key ← keyOf segment
  let record ← parsed (Record.decode (← bodyOf board r))
  return (key, record)

/-- The record that is made. -/
def createDraft (board : Board) (r : Request) : Except Halt (String × Record) := do
  let record ← parsed (Record.decode (← bodyOf board r))
  (assigned r.random record).mapError .failure

/-- The status that a record is moved to, and the record with it. -/
def moveDraft (board : Board) (t : Table) (segment : String) (r : Request) :
    Except Halt (Status × String × Record) := do
  let key ← keyOf segment
  let name ← parsed (StatusBody.decode (← bodyOf board r))
  match Status.ofText? name with
  | none => fail (.unknownStatus name)
  | some status =>
    match ← calling (Backend.direct.getRecord t key) with
    | none => fail (.noRecord key)
    | some record => return (status, key, record.set "status" (.string status.text))

/-- The record that a delivery becomes, if it becomes one. -/
def deliveryDraft (board : Board) (r : Request) : Except Halt (Option Delivery.Draft) := do
  let body ← bodyOf board r
  let event := (r.headers.text? eventHeader).getD ""
  if (Delivery.rule? event).isNone then return none
  else
    match Delivery.normalize event (← parsed (Json.decode body)) (clock r) with
    | .record draft => return some draft
    | _ => return none

/-- A record of a sync, if it is one and says where it goes. -/
def syncDraft? (v : Value) : Option (String × Record) := do
  let record ← Record.ofValue? v
  let key ← record.derivedKey? defaultType
  return (key, record)

/-- The writes that the items of a sync ask for. -/
def upserts (now : UInt64) (items : List Value) : List Step :=
  (items.filterMap syncDraft?).map fun draft => .upsert draft.1 draft.2 now

/-- Whether an item of a sync is written, on the table that it meets. -/
def isWritten (b : Backend) (now : UInt64) (t : Table) (v : Value) : Bool :=
  match syncDraft? v with
  | none => false
  | some (key, record) => (b.upsert key record now t).2.isOk

/-- The records that a request asks to be written, with their keys. -/
def drafts (board : Board) (t : Table) (r : Request) : List (String × Record) :=
  match Resource.ofTarget r.target, Verb.ofMethod r.method with
  | .records, .post => (createDraft board r).toOption.toList
  | .record segment, .put => (putDraft board segment r).toOption.toList
  | .status segment, .put => (moveDraft board t segment r).toOption.toList.map (·.2)
  | .sync, .post => ((syncRecords board r).toOption.getD []).filterMap syncDraft?
  | .deliveries, .post =>
    ((deliveryDraft board r).toOption.bind id).toList.map fun draft => (draft.key, draft.record)
  | _, _ => []

/-- The keys that a request asks to be deleted. -/
def deletions (r : Request) : List String :=
  match Resource.ofTarget r.target, Verb.ofMethod r.method with
  | .record segment, .delete => (keyOf segment).toOption.toList
  | _, _ => []

/-- The steps that a request takes on the table. -/
def writes (board : Board) (t : Table) (r : Request) : List Step :=
  if (Resource.ofTarget r.target).isGuarded && !board.guard.admits r.headers then []
  else
    ((drafts board t r).map fun draft => .upsert draft.1 draft.2 (clock r))
      ++ (deletions r).map .delete

/-- The steps that the requests of a run take, one after the other. -/
def journal (board : Board) (t : Table) : List Request → List Step
  | [] => []
  | r :: rest => writes board t r ++ journal board (board.answer .direct t r).1 rest

/-! ## Replies -/

/-- The reply to a request that put a record in place of another. -/
def putReply (draft : String × Record) (stored : Record) : Reply :=
  ok [("success", .boolean true), ("key", .string draft.1),
    ("updated_at", .ofWord (lastWritten stored))]

/-- The reply to a request that made a record. -/
def createReply (draft : String × Record) (stored : Record) : Reply :=
  ⟨201, .object [("success", .boolean true), ("key", .string draft.1), ("record", stored.toValue)]⟩

/-- The reply to a request that moved a record. -/
def moveReply (draft : Status × String × Record) (stored : Record) : Reply :=
  ok [("success", .boolean true), ("key", .string draft.2.1), ("status", .string draft.1.text),
    ("updated_at", .ofWord (lastWritten stored))]

/-- The reply to a delivery, but for the record that it became. -/
def deliveryReply (r : Request) (behind : List (String × Value)) : Reply :=
  ok ([("success", .boolean true), ("event", .string ((r.headers.text? eventHeader).getD ""))] ++
    behind)

/-- The reply to a delivery that became a record. -/
def recordReply (r : Request) (draft : Delivery.Draft) (_stored : Record) : Reply :=
  deliveryReply r [("key", .string draft.key), ("status", .string draft.status.text)]

/-! ## Requests as sessions -/

/-- Writes a draft, if it is one, and replies with what is stored. -/
def writeDraft {α : Type} (b : Backend) (now : UInt64) (key : α → String) (record : α → Record)
    (reply : α → Record → Reply) (draft : Except Halt α) : Action Halt Reply := do
  let d ← draft
  let stored ← performing (b.upsert (key d) (record d) now)
  return reply d stored

/-- A request about one record writes at most that one. -/
theorem writeDraft_table {α : Type} (t : Table) (now : UInt64) (key : α → String)
    (record : α → Record) (reply : α → Record → Reply) (draft : Except Halt α) :
    (writeDraft .direct now key record reply draft t).1 =
      (session .direct t
        (draft.toOption.toList.map fun draft => .upsert (key draft) (record draft) now)).1 := by
  cases draft with
  | error e => rfl
  | ok d =>
    exact congrArg Prod.fst
      (Action.bind_pure_apply (performing (Backend.direct.upsert (key d) (record d) now))
        (reply d) t)

theorem putRecord_eq (board : Board) (b : Backend) (segment : String) (r : Request) :
    putRecord board b segment r =
      writeDraft b (clock r) Prod.fst Prod.snd putReply (putDraft board segment r) := by
  unfold putRecord putDraft
  cases keyOf segment with
  | error e => rfl
  | ok key =>
    cases bodyOf board r with
    | error e => rfl
    | ok body =>
      show (liftM (parsed (Record.decode body)) >>= _) =
        writeDraft _ _ _ _ _ (parsed (Record.decode body) >>= _)
      cases parsed (Record.decode body) <;> rfl

theorem createRecord_eq (board : Board) (b : Backend) (r : Request) :
    createRecord board b r =
      writeDraft b (clock r) Prod.fst Prod.snd createReply (createDraft board r) := by
  unfold createRecord createDraft
  cases bodyOf board r with
  | error e => rfl
  | ok body =>
    show (liftM (parsed (Record.decode body)) >>= _) =
      writeDraft _ _ _ _ _ (parsed (Record.decode body) >>= _)
    cases parsed (Record.decode body) with
    | error e => rfl
    | ok record =>
      show (liftM ((assigned r.random record).mapError Halt.failure) >>= _) =
        writeDraft _ _ _ _ _ ((assigned r.random record).mapError Halt.failure)
      cases (assigned r.random record).mapError Halt.failure <;> rfl

theorem moveRecord_eq (board : Board) (t : Table) (segment : String) (r : Request) :
    moveRecord board .direct segment r t =
      writeDraft .direct (clock r) (·.2.1) (·.2.2) moveReply (moveDraft board t segment r) t := by
  unfold moveRecord moveDraft
  cases keyOf segment with
  | error e => rfl
  | ok key =>
    cases bodyOf board r with
    | error e => rfl
    | ok body =>
      show (liftM (parsed (StatusBody.decode body)) >>= _ : Action Halt Reply) _ =
        writeDraft _ _ _ _ _ (parsed (StatusBody.decode body) >>= _) _
      cases parsed (StatusBody.decode body) with
      | error e => rfl
      | ok name =>
        rw [Action.check_bind]
        dsimp only [bind, Except.bind]
        cases Status.ofText? name with
        | none => rfl
        | some status =>
          show (Action.reading (fun t => calling (Backend.direct.getRecord t key)) >>= _) t = _
          rw [Action.bind_eq_following]
          show Action.following _ (calling (Backend.direct.getRecord t key)) t = _
          rcases Backend.direct.getRecord t key with e | _ | old <;> rfl

theorem deleteRecord_table (t : Table) (segment : String) :
    (deleteRecord .direct segment t).1 =
      (session .direct t ((keyOf segment).toOption.toList.map .delete)).1 := by
  unfold deleteRecord
  cases keyOf segment <;> rfl

theorem takeDelivery_eq (board : Board) (b : Backend) (r : Request) :
    takeDelivery board b r = liftM (deliveryDraft board r) >>= fun found =>
      match found with
      | none => pure (deliveryReply r [])
      | some draft =>
        writeDraft b (clock r) Delivery.Draft.key Delivery.Draft.record (recordReply r)
          (.ok draft) := by
  unfold takeDelivery deliveryDraft
  cases bodyOf board r with
  | error e => rfl
  | ok body =>
    show (if (Delivery.rule? ((r.headers.text? eventHeader).getD "")).isNone then _ else _) =
      ((liftM (if (Delivery.rule? ((r.headers.text? eventHeader).getD "")).isNone then _ else _ :
        Except Halt (Option Delivery.Draft)) : Action Halt _) >>= _)
    split
    · rfl
    · show (liftM (parsed (Json.decode body)) >>= _) =
        ((liftM (parsed (Json.decode body) >>= _ : Except Halt (Option Delivery.Draft)) :
          Action Halt _) >>= _)
      cases parsed (Json.decode body) with
      | error e => rfl
      | ok payload =>
        rw [Action.check_bind]
        dsimp only [bind, Except.bind]
        cases Delivery.normalize ((r.headers.text? eventHeader).getD "") payload (clock r) <;> rfl

theorem takeDelivery_of_draft {board : Board} {r : Request} {draft : Delivery.Draft}
    (h : deliveryDraft board r = .ok (some draft)) (b : Backend) :
    takeDelivery board b r =
      writeDraft b (clock r) Delivery.Draft.key Delivery.Draft.record (recordReply r)
        (.ok draft) := by
  rw [takeDelivery_eq, h]
  rfl

theorem takeDelivery_table (board : Board) (t : Table) (r : Request) :
    (takeDelivery board .direct r t).1 =
      (session .direct t (((deliveryDraft board r).toOption.bind id).toList.map fun draft =>
        .upsert draft.key draft.record (clock r))).1 := by
  rw [takeDelivery_eq]
  cases deliveryDraft board r with
  | error e => rfl
  | ok found =>
    cases found with
    | none => rfl
    | some draft =>
      exact writeDraft_table t (clock r) Delivery.Draft.key Delivery.Draft.record (recordReply r)
        (.ok draft)

theorem upserts_cons (now : UInt64) (v : Value) (rest : List Value) :
    upserts now (v :: rest) = upserts now [v] ++ upserts now rest := by
  unfold upserts
  rw [List.filterMap_cons]
  cases hdraft : syncDraft? v <;> simp [hdraft]

/-- An item of a sync that is no record, or does not say where it goes, is left out. -/
theorem syncOne_of_no_draft {v : Value} (h : syncDraft? v = none) :
    ∃ e, ∀ (b : Backend) (now : UInt64), syncOne b now v = pure ⟨none, some e⟩ := by
  unfold syncDraft? at h
  unfold syncOne
  cases hrecord : Record.ofValue? v with
  | none => exact ⟨_, fun _ _ => rfl⟩
  | some record =>
    cases hkey : record.derivedKey? defaultType with
    | none =>
      simp only [hkey]
      exact ⟨_, fun _ _ => rfl⟩
    | some key => simp [hrecord, hkey] at h

theorem syncOne_of_draft {v : Value} {key : String} {record : Record}
    (h : syncDraft? v = some (key, record)) (b : Backend) (now : UInt64) :
    syncOne b now v = (b.upsert key record now).told (slotOf key) := by
  obtain ⟨record', hrecord, h⟩ := Option.bind_eq_some_iff.1 h
  obtain ⟨key', hkey, h⟩ := Option.bind_eq_some_iff.1 h
  cases h
  unfold syncOne
  simp only [hrecord, hkey]

/-- What a slot says about an item that met a table. -/
structure Slot.IsOf (slot : Slot) (b : Backend) (now : UInt64) (before : Table) (v : Value) :
    Prop where
  /-- The key is the one that the item asks for. -/
  key : slot.key = (syncDraft? v).map (·.1)
  /-- It is a success if the item was written. -/
  success : slot.success = isWritten b now before v

section NeverPanics

variable {b : Backend} (hb : b.NeverPanics) (now : UInt64)

include hb

/-- An item of a sync is written if it asks for it, and the slot says what became of it. -/
theorem exists_slot_of_syncOne (t : Table) (v : Value) :
    ∃ slot : Slot, syncOne b now v t = ((session b t (upserts now [v])).1, .ok slot) ∧
      slot.IsOf b now t v := by
  cases hdraft : syncDraft? v with
  | none =>
    obtain ⟨e, hone⟩ := syncOne_of_no_draft hdraft
    have hsession : session b t (upserts now [v]) = (t, []) := by simp [upserts, hdraft]
    refine ⟨_, by rw [hone, hsession]; rfl, ?_, ?_⟩
    · rw [hdraft]
      rfl
    · rw [isWritten, hdraft]
      rfl
  | some draft =>
    obtain ⟨key, record⟩ := draft
    have hsession : (session b t (upserts now [v])).1 = (b.upsert key record now t).1 := by
      simp only [upserts, hdraft, List.filterMap_cons, List.filterMap_nil, List.map_cons,
        List.map_nil, Store.session_cons, Store.session_nil]
      rfl
    have hwritten : isWritten b now t v = (b.upsert key record now t).2.isOk := by
      rw [isWritten, hdraft]
    rw [hsession, syncOne_of_draft hdraft]
    cases hwrite : (b.upsert key record now t).2 with
    | ok stored =>
      refine ⟨⟨some key, none⟩, Prod.ext rfl (congrArg (slotOf key) hwrite), ?_, ?_⟩
      · rw [hdraft]
        rfl
      · rw [hwritten, hwrite]
        rfl
    | error e =>
      obtain ⟨f, rfl⟩ :=
        Backend.isFailure_of_isFrom hb (b.ends_upsert t none key record now e hwrite)
      refine ⟨⟨some key, some f.message⟩, Prod.ext rfl (congrArg (slotOf key) hwrite), ?_, ?_⟩
      · rw [hdraft]
        rfl
      · rw [hwritten, hwrite]
        rfl

/-- The items are taken in order, and each meets the table that those in front of it left. -/
theorem exists_slots_of_syncAll (t : Table) (items : List Value) :
    ∃ slots, syncAll b now items t = ((session b t (upserts now items)).1, .ok slots) ∧
      slots.length = items.length ∧
      ∀ (i : Nat) (v : Value), items[i]? = some v → ∃ slot : Slot, slots[i]? = some slot ∧
        slot.IsOf b now (session b t (upserts now (items.take i))).1 v := by
  induction items generalizing t with
  | nil =>
    refine ⟨[], rfl, rfl, ?_⟩
    intro i v hv
    cases hv
  | cons v rest ih =>
    obtain ⟨slot, hone, hslot⟩ := exists_slot_of_syncOne hb now t v
    obtain ⟨slots, hall, hlength, hslots⟩ := ih (session b t (upserts now [v])).1
    refine ⟨slot :: slots, ?_, congrArg (· + 1) hlength, ?_⟩
    · rw [upserts_cons, Store.session_append, syncAll, Action.bind_of_ok hone,
        Action.bind_of_ok hall]
      rfl
    · intro i w hw
      cases i with
      | zero =>
        cases hw
        exact ⟨slot, rfl, hslot⟩
      | succ i =>
        obtain ⟨slot', hslot', htells⟩ := hslots i w hw
        refine ⟨slot', hslot', ?_⟩
        rw [List.take_succ_cons, upserts_cons, Store.session_append]
        exact htells

end NeverPanics

theorem sync_table (board : Board) (t : Table) (r : Request) :
    (sync board .direct r t).1 =
      (session .direct t ((((syncRecords board r).toOption.getD []).filterMap syncDraft?).map
        fun draft => .upsert draft.1 draft.2 (clock r))).1 := by
  cases hrecords : syncRecords board r with
  | error h =>
    unfold sync
    rw [hrecords]
    rfl
  | ok records =>
    obtain ⟨slots, hall, -⟩ := exists_slots_of_syncAll (b := .direct) trivial (clock r) t records
    rw [sync_of_slots hrecords hall]
    rfl

theorem carryOut_eq_session (board : Board) (t : Table) (r : Request) :
    (carryOut board .direct t r).1 =
      (session .direct t (((drafts board t r).map fun draft => .upsert draft.1 draft.2 (clock r))
        ++ (deletions r).map .delete)).1 := by
  unfold carryOut drafts deletions
  cases Resource.ofTarget r.target <;> cases Verb.ofMethod r.method
  case records.post =>
    dsimp only
    rw [createRecord_eq, List.map_nil, List.append_nil]
    exact writeDraft_table t (clock r) Prod.fst Prod.snd createReply (createDraft board r)
  case record.put segment =>
    dsimp only
    rw [putRecord_eq, List.map_nil, List.append_nil]
    exact writeDraft_table t (clock r) Prod.fst Prod.snd putReply (putDraft board segment r)
  case status.put segment =>
    dsimp only
    rw [moveRecord_eq, List.map_nil, List.append_nil, List.map_map, writeDraft_table]
    rfl
  case record.delete segment =>
    dsimp only
    rw [deleteRecord_table, List.map_nil, List.nil_append]
  case sync.post =>
    dsimp only
    rw [sync_table, List.map_nil, List.append_nil]
  case deliveries.post =>
    dsimp only
    rw [takeDelivery_table, List.map_nil, List.append_nil, List.map_map]
    rfl
  case ready.get => exact isReading_ready .direct t
  case records.get => exact isReading_listRecords board .direct r.target t
  case record.get segment => exact isReading_readRecord .direct segment t
  case summary.get => exact isReading_summary board .direct t
  all_goals rfl

/-- The table that a request leaves is the one that its steps make. -/
theorem answer_eq_session (board : Board) (t : Table) (r : Request) :
    (board.answer .direct t r).1 = (session .direct t (writes board t r)).1 := by
  by_cases hoptions : r.method = "OPTIONS"
  · have hnone : writes board t r = [] := by
      have hverb : Verb.ofMethod r.method = .other := by
        rw [hoptions]
        decide
      unfold writes drafts deletions
      rw [hverb]
      cases Resource.ofTarget r.target <;> split <;> rfl
    rw [hnone]
    unfold answer
    rw [if_pos hoptions, Store.session_nil]
  · rw [answer_of_method board _ t hoptions]
    unfold outcome writes
    split
    · rfl
    · exact carryOut_eq_session board t r

/-- The table that a run leaves is the one that its journal makes. -/
theorem run_eq_session (board : Board) (t : Table) (rs : List Request) :
    (board.run .direct t rs).1 = (session .direct t (journal board t rs)).1 := by
  induction rs generalizing t with
  | nil => rfl
  | cons r rest ih => rw [run_cons, journal, Store.session_append, ← answer_eq_session, ih]

/-! ## Where records come from -/

/-- Where a record comes from that a request writes under a key. -/
inductive Brings (board : Board) (t : Table) (r : Request) : String → Record → Prop
  /-- It takes the place of another. -/
  | put {segment key : String} {record : Record}
      (hresource : Resource.ofTarget r.target = .record segment) (hkey : keyOf segment = .ok key)
      (hrecord : Record.decode r.body = .ok record) : Brings board t r key record
  /-- It is made. -/
  | create {asked : Record} {key : String} {record : Record}
      (hasked : Record.decode r.body = .ok asked)
      (hrecord : assigned r.random asked = .ok (key, record)) : Brings board t r key record
  /-- It is moved. -/
  | move {key : String} {old : Record} {status : Status}
      (hold : Backend.direct.getRecord t key = .ok (some old)) :
      Brings board t r key (old.set "status" (.string status.text))
  /-- It is one of a sync. -/
  | sync {records : List Value} {v : Value} {key : String} {record : Record}
      (hrecords : SyncBody.decode r.body = .ok records) (hv : v ∈ records)
      (hrecord : Record.ofValue? v = some record)
      (hkey : record.derivedKey? defaultType = some key) : Brings board t r key record
  /-- A delivery became it. -/
  | delivery {event : String} {payload : Value} {draft : Delivery.Draft}
      (hresource : Resource.ofTarget r.target = .deliveries)
      (hpayload : Json.decode r.body = .ok payload)
      (hdraft : Delivery.normalize event payload (clock r) = .record draft) :
      Brings board t r draft.key draft.record

theorem eq_body_of_bodyOf {board : Board} {r : Request} {body : Bytes}
    (h : bodyOf board r = .ok body) :
    body = r.body := by
  unfold bodyOf at h
  split at h
  · cases h
  · cases h
    rfl

theorem ok_of_mapError {ε ε' α : Type} {f : ε → ε'} {result : Except ε α} {a : α}
    (h : result.mapError f = .ok a) : result = .ok a := by
  cases result with
  | error e => cases h
  | ok a' =>
    cases h
    rfl

theorem ok_of_mem_toList {ε α : Type} {result : Except ε α} {a : α}
    (h : a ∈ result.toOption.toList) :
    result = .ok a := by
  cases result with
  | error e => cases h
  | ok a' =>
    cases List.mem_singleton.1 h
    rfl

theorem brings_of_putDraft {board : Board} {t : Table} {r : Request} {segment : String}
    {draft : String × Record} (hresource : Resource.ofTarget r.target = .record segment)
    (h : putDraft board segment r = .ok draft) : Brings board t r draft.1 draft.2 := by
  obtain ⟨key, hkey, h⟩ := exists_of_bind h
  obtain ⟨body, hbody, h⟩ := exists_of_bind h
  obtain ⟨record, hrecord, h⟩ := exists_of_bind h
  cases h
  exact .put hresource hkey (eq_body_of_bodyOf hbody ▸ ok_of_mapError hrecord)

theorem brings_of_createDraft {board : Board} {t : Table} {r : Request} {draft : String × Record}
    (h : createDraft board r = .ok draft) : Brings board t r draft.1 draft.2 := by
  obtain ⟨body, hbody, h⟩ := exists_of_bind h
  obtain ⟨asked, hasked, h⟩ := exists_of_bind h
  exact .create (eq_body_of_bodyOf hbody ▸ ok_of_mapError hasked) (ok_of_mapError h)

theorem brings_of_moveDraft {board : Board} {t : Table} {r : Request} {segment : String}
    {draft : Status × String × Record} (h : moveDraft board t segment r = .ok draft) :
    Brings board t r draft.2.1 draft.2.2 := by
  obtain ⟨key, hkey, h⟩ := exists_of_bind h
  obtain ⟨body, hbody, h⟩ := exists_of_bind h
  obtain ⟨name, hname, h⟩ := exists_of_bind h
  split at h
  · cases h
  · obtain ⟨found, hfound, h⟩ := exists_of_bind h
    cases found with
    | none => cases h
    | some old =>
      cases h
      exact .move (ok_of_mapError hfound)

/-- What a delivery must be to become a record. -/
theorem exists_payload_of_deliveryDraft {board : Board} {r : Request} {draft : Delivery.Draft}
    (h : deliveryDraft board r = .ok (some draft)) :
    bodyOf board r = .ok r.body ∧
      (Delivery.rule? ((r.headers.text? eventHeader).getD "")).isNone = false ∧
      ∃ payload, Json.decode r.body = .ok payload ∧
        Delivery.normalize ((r.headers.text? eventHeader).getD "") payload (clock r) =
          .record draft := by
  obtain ⟨body, hbody, h⟩ := exists_of_bind h
  obtain rfl := eq_body_of_bodyOf hbody
  dsimp only at h
  split at h
  · cases h
  next hrule =>
    obtain ⟨payload, hpayload, h⟩ := exists_of_bind h
    refine ⟨hbody, eq_false_of_ne_true hrule, payload, ok_of_mapError hpayload, ?_⟩
    split at h
    next hdraft =>
      cases h
      exact hdraft
    next => cases h

section Delivery

variable {board : Board} {r : Request} (hlength : r.body.length ≤ board.limits.body)

include hlength

/-- The body of a delivery whose event does not count is not looked at. -/
theorem deliveryDraft_of_no_rule
    (h : Delivery.rule? ((r.headers.text? eventHeader).getD "") = none) :
    deliveryDraft board r = .ok none := by
  unfold deliveryDraft bodyOf
  rw [if_neg (Nat.not_lt.2 hlength)]
  dsimp only [bind, Except.bind]
  rw [h]
  rfl

/-- Else a delivery becomes what the value in its body does. -/
theorem deliveryDraft_of_rule {event : String} {rule : Delivery.Rule}
    (hevent : r.headers.text? eventHeader = some event) (hrule : Delivery.rule? event = some rule) :
    deliveryDraft board r = parsed (Json.decode r.body) >>= fun payload =>
      .ok (Delivery.normalize event payload (clock r)).draft? := by
  unfold deliveryDraft bodyOf
  rw [if_neg (Nat.not_lt.2 hlength), hevent]
  dsimp only [bind, Except.bind, Option.getD_some]
  rw [hrule, Option.isNone_some, if_neg Bool.false_ne_true]
  cases parsed (Json.decode r.body) with
  | error h => rfl
  | ok payload =>
    dsimp only
    cases Delivery.normalize event payload (clock r) <;> rfl

end Delivery

theorem brings_of_deliveryDraft {board : Board} {t : Table} {r : Request} {draft : Delivery.Draft}
    (hresource : Resource.ofTarget r.target = .deliveries)
    (h : deliveryDraft board r = .ok (some draft)) : Brings board t r draft.key draft.record := by
  obtain ⟨-, -, payload, hpayload, hdraft⟩ := exists_payload_of_deliveryDraft h
  exact .delivery hresource hpayload hdraft

/-- A record that a sync asks to be written is one of the values in its body, under the key that it
asks for. -/
theorem exists_of_mem_syncDrafts {board : Board} {r : Request} {draft : String × Record}
    (h : draft ∈ ((syncRecords board r).toOption.getD []).filterMap syncDraft?) :
    ∃ items v, SyncBody.decode r.body = .ok items ∧ v ∈ items ∧ Record.ofValue? v = some draft.2 ∧
      draft.2.derivedKey? "task" = some draft.1 := by
  obtain ⟨v, hv, hdraft⟩ := List.mem_filterMap.1 h
  obtain ⟨record, hrecord, hdraft⟩ := Option.bind_eq_some_iff.1 hdraft
  obtain ⟨key, hkey, hdraft⟩ := Option.bind_eq_some_iff.1 hdraft
  cases hdraft
  cases hrecords : syncRecords board r with
  | error e =>
    rw [hrecords] at hv
    cases hv
  | ok items =>
    rw [hrecords] at hv
    obtain ⟨body, hbody, hdecode⟩ := exists_of_bind hrecords
    exact ⟨items, v, eq_body_of_bodyOf hbody ▸ ok_of_mapError hdecode, hv, hrecord, hkey⟩

/-- The records that a request asks to be written are brought by it. -/
theorem brings_of_mem_drafts {board : Board} {t : Table} {r : Request} {draft : String × Record}
    (h : draft ∈ drafts board t r) : Brings board t r draft.1 draft.2 := by
  unfold drafts at h
  split at h
  next => exact brings_of_createDraft (ok_of_mem_toList h)
  next hresource _ => exact brings_of_putDraft hresource (ok_of_mem_toList h)
  next =>
    obtain ⟨moved, hmoved, rfl⟩ := List.mem_map.1 h
    exact brings_of_moveDraft (ok_of_mem_toList hmoved)
  next =>
    obtain ⟨items, v, hdecode, hv, hrecord, hkey⟩ := exists_of_mem_syncDrafts h
    exact .sync hdecode hv hrecord hkey
  next hresource _ =>
    obtain ⟨taken, htaken, rfl⟩ := List.mem_map.1 h
    obtain ⟨found, hfound, rfl⟩ := Option.bind_eq_some_iff.1 (Option.mem_toList.1 htaken)
    exact brings_of_deliveryDraft hresource (ok_of_mem_toList (Option.mem_toList.2 hfound))
  next => cases h

theorem asks_of_mem_deletions {r : Request} {key : String} (h : key ∈ deletions r) :
    Asks "DELETE" key r := by
  unfold deletions at h
  split at h
  next segment hresource hverb =>
    exact ⟨(method_of_verb hverb).2.2 rfl, segment, hresource, ok_of_mem_toList h⟩
  next => cases h

/-- A step writes a record that its request brings, at its clock, or it deletes a key that it asks
for. -/
theorem brings_of_mem_writes {board : Board} {t : Table} {r : Request} {step : Step}
    (h : step ∈ writes board t r) :
    (∃ key record, step = .upsert key record (clock r) ∧ Brings board t r key record) ∨
      ∃ key, step = .delete key ∧ Asks "DELETE" key r := by
  unfold writes at h
  split at h
  · cases h
  · rcases List.mem_append.1 h with h | h
    · obtain ⟨draft, hdraft, rfl⟩ := List.mem_map.1 h
      exact .inl ⟨draft.1, draft.2, rfl, brings_of_mem_drafts hdraft⟩
    · obtain ⟨key, hkey, rfl⟩ := List.mem_map.1 h
      exact .inr ⟨key, rfl, asks_of_mem_deletions hkey⟩

/-! ## What is brought -/

theorem key_ne_empty_of_key? {record : Record} {key : String} (h : record.key? = some key) :
    key ≠ "" := by
  unfold Record.key? at h
  simpa using (Option.filter_eq_some_iff.1 h).2

theorem key_ne_empty_of_derivedKey? {record : Record} {entityType key : String}
    (h : record.derivedKey? entityType = some key) : key ≠ "" := by
  unfold Record.derivedKey? at h
  cases hkey : record.key? with
  | some asked =>
    rw [hkey] at h
    cases h
    exact key_ne_empty_of_key? hkey
  | none =>
    rw [hkey] at h
    obtain ⟨id, -, rfl⟩ := Option.map_eq_some_iff.1 h
    exact composedKey_ne_empty _ _

/-- A record that names its key is left as it is. -/
theorem assigned_of_key (random : Option Bytes) {asked : Record} {key : String}
    (h : asked.key? = some key) :
    assigned random asked = .ok (key, asked) := by
  unfold assigned
  rw [h]

/-- One that does not is completed, by the random octets if it has no id. -/
theorem assigned_of_unnamed (random : Option Bytes) {asked : Record} (h : asked.key? = none) :
    assigned random asked = (asked.id? <|> random.map Hex.encode).elim (.error .noRandom) fun id =>
      .ok (composedKey (asked.entityType?.getD "task") id, asked.completed id) := by
  have hid := asked.id?_typed
  unfold assigned Record.completed
  unfold Record.typed at hid ⊢
  rw [h]
  cases htype : asked.entityType? with
  | some entityType =>
    rw [if_neg (Option.some_ne_none entityType)]
    dsimp only
    cases asked.id? with
    | some id => rfl
    | none => cases random <;> rfl
  | none =>
    rw [htype, if_pos rfl] at hid
    rw [if_pos rfl]
    dsimp only [defaultType]
    rw [hid]
    cases asked.id? with
    | some id => rfl
    | none => cases random <;> rfl

/-- A record that is made has a key, and nests as deep as the one that was asked for. -/
theorem of_assigned {random : Option Bytes} {asked record : Record} {key : String}
    (h : assigned random asked = .ok (key, record)) :
    key ≠ "" ∧ ∀ room, asked.toValue.Within (room + 1) → record.toValue.Within (room + 1) := by
  cases hkey : asked.key? with
  | some named =>
    rw [assigned_of_key random hkey] at h
    cases h
    exact ⟨key_ne_empty_of_key? hkey, fun _ hasked => hasked⟩
  | none =>
    rw [assigned_of_unnamed random hkey] at h
    cases hid : asked.id? <|> random.map Hex.encode with
    | none =>
      rw [hid] at h
      cases h
    | some id =>
      rw [hid] at h
      cases h
      exact ⟨composedKey_ne_empty _ _, fun _ hasked => Record.within_completed id hasked⟩

theorem segment_ne_empty {target : Http.Target} {segment : String}
    (h : Resource.ofTarget target = .record segment) : segment ≠ "" := by
  unfold Resource.ofTarget at h
  split at h
  case h_5 segment' _ =>
    split at h
    · cases h
    · cases h
      assumption
  all_goals cases h

/-- A segment that is not empty spells a key that is not. -/
theorem key_ne_empty_of_keyOf {segment key : String} (hsegment : segment ≠ "")
    (h : keyOf segment = .ok key) : key ≠ "" := by
  rintro rfl
  have hdecode : Utf8.decode (Http.percentDecode (Utf8.encode segment)) = .ok "" := by
    unfold keyOf at h
    split at h
    · cases h
      assumption
    · cases h
  refine Http.percentDecode_ne_nil ?_ (Utf8.eq_nil_of_decode hdecode)
  intro hempty
  exact hsegment (Utf8.encode_injective (hempty.trans (rfl : [] = Utf8.encode "")))

/-- No request writes a record under the empty key, unless there is one already. -/
theorem key_ne_empty_of_brings {board : Board} {t : Table} {r : Request} {key : String}
    {record : Record} (ht : t.get? "" = none) (h : Brings board t r key record) : key ≠ "" := by
  cases h with
  | put hresource hkey _ => exact key_ne_empty_of_keyOf (segment_ne_empty hresource) hkey
  | create _ hrecord => exact (of_assigned hrecord).1
  | move hold =>
    rintro rfl
    obtain ⟨value, hvalue, -⟩ := Store.exists_value_of_getRecord hold
    rw [ht] at hvalue
    cases hvalue
  | sync _ _ _ hkey =>
    exact key_ne_empty_of_derivedKey? hkey
  | delivery _ _ _ => exact composedKey_ne_empty _ _

theorem within_of_ofFields? (room : Nat) {fields : List (String × Value)} {records : List Value}
    (hfields : ∀ e ∈ fields, e.2.Within (room + 1)) (h : SyncBody.ofFields? fields = some records) :
    ∀ v ∈ records, v.Within room := by
  unfold SyncBody.ofFields? at h
  split at h
  next hitems =>
    cases h
    have hmem : Value.array records ∈ SyncBody.occurrences "records" fields := by
      rw [hitems]
      exact List.mem_cons_self
    obtain ⟨e, he, heq⟩ := List.mem_map.1 hmem
    have hwithin := hfields e (List.mem_filter.1 he).1
    rw [heq] at hwithin
    exact Value.within_array_iff.1 hwithin
  next => cases h

/-- The body of a sync is refused as JSON, or because it holds no records. -/
theorem ends_syncBody (body : Bytes) :
    Ends (fun f => f = .noRecords ∨ ∃ g, f = .badBody g) (SyncBody.decode body) := by
  refine .bind (.mapError fun g _ => .inr ⟨g, rfl⟩) fun found _ => ?_
  obtain ⟨records, rest⟩ := found
  cases records with
  | none => exact .error (.inl rfl)
  | some items => exact .bind (.mapError fun g _ => .inr ⟨g, rfl⟩) fun _ _ => .ok _

/-- The values that the body of a sync holds are in shape. -/
theorem within_of_syncBody {body : Bytes} {records : List Value}
    (h : SyncBody.decode body = .ok records) : ∀ v ∈ records, v.Within (Json.maxDepth - 1) := by
  have hread : Json.Finds (fun found => ∀ records, found = some records →
      ∀ v ∈ records, v.Within (Json.maxDepth - 1)) (SyncBody.read body) := by
    refine Json.Finds.after fun front => ?_
    cases front with
    | scalar v rest => exact Json.Finds.ok nofun rest
    | list inside =>
      refine ((Json.readersWithin _).items _ inside).bind fun items rest hitems => ?_
      exact Json.Finds.ok (fun _ heq => Option.some.inj heq ▸ hitems) rest
    | map inside =>
      refine ((Json.readersWithin _).fields _ inside).bind fun fields rest hfields => ?_
      refine Json.Finds.ok (fun records heq v hv => ?_) rest
      exact (within_of_ofFields? (Json.maxDepth - 2) hfields heq v hv).mono (Nat.le_succ _)
  obtain ⟨⟨found, rest⟩, hfound, h⟩ := exists_of_bind h
  cases hlocated : SyncBody.read body with
  | error s =>
    rw [hlocated] at hfound
    cases hfound
  | ok read =>
    rw [hlocated] at hfound
    cases hfound
    cases found with
    | none => cases h
    | some items =>
      obtain ⟨-, -, h⟩ := exists_of_bind h
      cases h
      exact hread (some records) rest hlocated records rfl

/-- The action of a delivery nests no deeper than so many brackets. -/
def ActionWithin (room : Nat) (r : Request) : Prop :=
  Resource.ofTarget r.target = .deliveries → ∀ payload action, Json.decode r.body = .ok payload →
    payload.member? "action" = some action → action.depth ≤ room

/-- In a payload that can be read it nests one bracket less than can be read. -/
theorem actionWithin_maxDepth (r : Request) : ActionWithin (Json.maxDepth - 1) r := by
  intro _ payload action hpayload haction
  exact ((Json.within_of_decode hpayload).member? haction).depth_le

/-- No record that is brought nests deeper than it can be read, unless an action makes it. -/
theorem within_of_brings {board : Board} {t : Table} {r : Request} {key : String} {record : Record}
    {room : Nat} (hroom : Json.maxDepth ≤ room + 2) (haction : ActionWithin room r)
    (h : Brings board t r key record) : record.toValue.Within (room + 2) := by
  cases h with
  | put _ _ hrecord => exact (Record.within_of_decode hrecord).mono hroom
  | create hasked hrecord =>
    exact (of_assigned hrecord).2 (room + 1) ((Record.within_of_decode hasked).mono hroom)
  | move hold =>
    obtain ⟨value, -, hdecode⟩ := Store.exists_value_of_getRecord hold
    exact Record.within_set "status" ((Record.within_of_decode hdecode).mono hroom)
      (Record.within_string _ (room + 1))
  | sync hrecords hv hrecord _ =>
    have hwithin := within_of_syncBody hrecords _ hv
    cases ‹Value› with
    | object fields =>
      cases hrecord
      exact hwithin.mono (by omega)
    | _ => cases hrecord
  | delivery hresource hpayload hdraft =>
    refine Delivery.within_draft ?_ ?_ (haction hresource _ · hpayload ·) hdraft
    · exact Nat.lt_of_lt_of_le (by decide : 0 < Json.maxDepth - 2) (by omega)
    · exact (Json.within_of_decode hpayload).mono hroom

/-- What is brought is in order. -/
theorem isOrdered_of_brings {board : Board} {t : Table} {r : Request} {key : String}
    {record : Record} (h : Brings board t r key record) : record.toValue.IsOrdered :=
  (within_of_brings (by decide) (actionWithin_maxDepth r) h).ordered

/-! ## What requests preserve -/

/-- A property of records is preserved by a request if the stamp gives it to what the request
brings. -/
theorem holds_answer {P : String → Record → Prop} {board : Board} {t : Table} {r : Request}
    (h : t.Holds P)
    (hstamp : ∀ key record, Brings board t r key record → ∀ previous, (∀ p, previous = some p →
        ∃ s : Record, s.toValue.IsOrdered ∧ P key s ∧ p = s.reread) →
      P key (record.stamp key previous (clock r))) : (board.answer .direct t r).1.Holds P := by
  rw [answer_eq_session]
  refine Store.session_induction _ h fun t' step hstep ht' => ?_
  rcases brings_of_mem_writes hstep with ⟨key, record, rfl, hbrings⟩ | ⟨key, rfl, -⟩
  · exact ht'.upsert (isOrdered_of_brings hbrings) (hstamp key record hbrings)
  · exact ht'.delete key

theorem holds_run {P : String → Record → Prop} {board : Board} {t : Table} {rs : List Request}
    (h : t.Holds P)
    (hstamp : ∀ t : Table, t.Holds P → ∀ r ∈ rs, ∀ key record, Brings board t r key record →
      ∀ previous, (∀ p, previous = some p →
        ∃ s : Record, s.toValue.IsOrdered ∧ P key s ∧ p = s.reread) →
      P key (record.stamp key previous (clock r))) : (board.run .direct t rs).1.Holds P :=
  run_induction board .direct rs h fun t r hr ht => holds_answer ht (hstamp t ht r hr)

end RecordBoard.Board
