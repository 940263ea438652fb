import RecordBoard.Board
import RecordBoard.Board.StatusBody
import RecordBoard.Board.SyncBody
import RecordBoard.Delivery
import RecordBoard.Http.Message
import RecordBoard.Record.Tally
import RecordBoard.Store.Records

/-!
# What requests do

One action for each thing that can be asked of a board. What an action has written when it comes to
an error stays written, so it is up to the actions that a request which is not carried out changes
nothing: in each of them the path is looked at first, then the length of the body, then what is in
it, and the store last. A sync writes many records, one after the other; what was written before the
store broke down stays written there.
-/

namespace RecordBoard.Board

open Json (Value)
open Store (Action Backend)
open Store.Action (reading)
open Http (Request Target)

/-- What a request that is carried out is told. -/
structure Reply where
  /-- The status. -/
  status : Nat
  /-- The body. -/
  body : Value

/-- A reply to a request that made nothing new. -/
def ok (fields : List (String × Value)) : Reply := ⟨200, .object fields⟩

/-! ## Parts of a request -/

/-- The key that a segment of the path spells. -/
def keyOf (segment : String) : Except Halt String :=
  match Utf8.decode (Http.percentDecode (Utf8.encode segment)) with
  | .ok key => .ok key
  | .error _ => fail .badPath

/-- The body of a request, if it is not too long. -/
def bodyOf (board : Board) (r : Request) : Except Halt Bytes :=
  if board.limits.body < r.body.length then fail .longBody else .ok r.body

/-- What a body is read as. -/
def parsed {α : Type} (result : Except Json.Fault α) : Except Halt α :=
  result.mapError fun f => .failure (.badBody f)

/-- An action on the store within a request. -/
def performing {α : Type} (action : Action Store.Trouble α) : Action Halt α := action.told calling

/-- The clock, in whole seconds. -/
def clock (r : Request) : UInt64 := clockSeconds r.now

/-! ## Reading -/

/-- Says that the service is there. -/
def health (board : Board) (r : Request) : Reply :=
  ok [("status", .string "ok"), ("service", .string board.serviceName),
    ("timestamp", .ofWord (clock r))]

/-- Says that the store answers. -/
def ready (b : Backend) : Action Halt Reply := do
  let _ ← reading fun t => calling (b.list t "" 1 none)
  return ok [("status", .string "ready")]

/-- Reads a record. -/
def readRecord (b : Backend) (segment : String) : Action Halt Reply := do
  let key ← keyOf segment
  match ← reading fun t => calling (b.getRecord t key) with
  | some r => return ⟨200, r.toValue⟩
  | none => fail (.noRecord key)

/-- The fields of a query that a listing knows. -/
def listingFields : List String := ["prefix", "limit", "cursor"]

/-- The first field of a listing that repeats one in front of it. -/
def repeated? (seen : List String) : List (String × String) → Option String
  | [] => none
  | (name, _) :: rest =>
    if name ∈ listingFields then if name ∈ seen then some name else repeated? (name :: seen) rest
    else repeated? seen rest

/-- The value of a field of a query. -/
def queryField? (name : String) (fields : List (String × String)) : Option String :=
  (fields.find? fun e => e.1 == name).map (·.2)

/-- The page size of a board, which is laid down only if pages may hold something. -/
def pageSize (board : Board) (asked : Option String) : Except Halt Nat :=
  match board.limits.pageSize? asked with
  | some size => .ok size
  | none => .error (.panic (.text "assertion failed: min <= max"))

/-- Reads a page of records. -/
def listRecords (board : Board) (b : Backend) (target : Target) : Action Halt Reply := do
  let fields := target.fields
  match repeated? [] fields with
  | some name => fail (.repeatedField name)
  | none =>
    let size ← pageSize board (queryField? "limit" fields)
    let stem := (queryField? "prefix" fields).getD ""
    let cursor := (queryField? "cursor" fields).filter fun s => s != ""
    let (records, next) ← reading fun t => calling (b.listRecords t stem size cursor)
    return ok [("records", .array (records.map Record.toValue)), ("count", .ofCount records.length),
      ("cursor", .ofString? next)]

/-- Counts the first records. -/
def summary (board : Board) (b : Backend) : Action Halt Reply := do
  let records ← reading fun t => calling (b.scan t board.limits.summary)
  return ⟨200, (Tally.ofList records).toValue⟩

/-! ## Writing one record -/

/-- When a record says it was last written, in whole seconds. -/
def lastWritten (r : Record) : UInt64 :=
  ((r.updatedAt?).map fun d => UInt64.ofNatClamp d.floor).getD 0

/-- Writes a record in place of another. -/
def putRecord (board : Board) (b : Backend) (segment : String)
    (r : Request) : Action Halt Reply := do
  let key ← keyOf segment
  let record ← parsed (Record.decode (← bodyOf board r))
  let stored ← performing (b.upsert key record (clock r))
  return ok [("success", .boolean true), ("key", .string key),
    ("updated_at", .ofWord (lastWritten stored))]

/-- The type of a record that does not say its own. -/
def defaultType : String := "task"

/-- The record with a type and an id, and the key that it asks for. A record that names a key
outright needs neither. -/
def assigned (random : Option Bytes) (record : Record) : Except Failure (String × Record) :=
  match record.key? with
  | some key => .ok (key, record)
  | none =>
    let (entityType, record) := match record.entityType? with
      | some entityType => (entityType, record)
      | none => (defaultType, record.set "entity_type" (.string defaultType))
    match record.id?, random with
    | some id, _ => .ok (composedKey entityType id, record)
    | none, some octets =>
      let id := Hex.encode octets
      .ok (composedKey entityType id, record.set "id" (.string id))
    | none, none => .error .noRandom

/-- Writes a record under the key that it asks for. -/
def createRecord (board : Board) (b : Backend) (r : Request) : Action Halt Reply := do
  let record ← parsed (Record.decode (← bodyOf board r))
  let (key, record) ← (assigned r.random record).mapError Halt.failure
  let stored ← performing (b.upsert key record (clock r))
  return ⟨201,
    .object [("success", .boolean true), ("key", .string key), ("record", stored.toValue)]⟩

/-- Moves a record to a status. -/
def moveRecord (board : Board) (b : Backend) (segment : String)
    (r : Request) : Action Halt Reply := do
  let key ← keyOf segment
  let name ← parsed (StatusBody.decode (← bodyOf board r))
  match Status.ofText? name with
  | none => fail (.unknownStatus name)
  | some status =>
    match ← reading fun t => calling (b.getRecord t key) with
    | none => fail (.noRecord key)
    | some record =>
      let moved := record.set "status" (.string status.text)
      let stored ← performing (b.upsert key moved (clock r))
      return ok [("success", .boolean true), ("key", .string key), ("status", .string status.text),
        ("updated_at", .ofWord (lastWritten stored))]

/-- Deletes a record. -/
def deleteRecord (b : Backend) (segment : String) : Action Halt Reply := do
  let key ← keyOf segment
  let existed ← performing (b.delete key)
  return ok [("success", .boolean true), ("key", .string key), ("deleted", .boolean existed)]

/-- The header that names the event of a delivery. -/
def eventHeader : String := "x-github-event"

/-- Takes a delivery. The body of one without a rule is not looked at. -/
def takeDelivery (board : Board) (b : Backend) (r : Request) : Action Halt Reply := do
  let body ← bodyOf board r
  let event := (r.headers.text? eventHeader).getD ""
  let taken := [("success", Value.boolean true), ("event", .string event)]
  if (Delivery.rule? event).isNone then return ok taken
  else
    match Delivery.normalize event (← parsed (Json.decode body)) (clock r) with
    | .record draft =>
      let _ ← performing (b.upsert draft.key draft.record (clock r))
      return ok (taken ++ [("key", .string draft.key), ("status", .string draft.status.text)])
    | _ => return ok taken

/-! ## Writing many records -/

/-- What became of one record of a sync. -/
structure Slot where
  /-- The key that the record asks for. -/
  key : Option String
  /-- What went wrong, if anything did. -/
  error : Option String

/-- Whether a record was written. -/
def Slot.success (s : Slot) : Bool := s.error.isNone

/-- A slot as a JSON value. -/
def Slot.toValue (s : Slot) : Value :=
  .object ([("key", .ofString? s.key), ("success", .boolean s.success)]
    ++ (s.error.map fun e => ("error", Value.string e)).toList)

/-- The kind of a value, as a refusal names it. -/
def found : Value → Json.Found
  | .array _ => .list
  | .object _ => .map
  | v => .scalar v

/-- The slot of a record whose write came to this. A failure fills it; only a breakdown goes
further. -/
def slotOf (key : String) : Except Store.Trouble Record → Except Store.Panic Slot
  | .ok _ => .ok ⟨some key, none⟩
  | .error (.failure f) => .ok ⟨some key, some f.message⟩
  | .error (.panic p) => .error p

/-- Writes one record of a sync. -/
def syncOne (b : Backend) (now : UInt64) (v : Value) : Action Store.Panic Slot :=
  match Record.ofValue? v with
  | none => return ⟨none, some ("invalid record: " ++ Json.wrongKindText (found v) "a map")⟩
  | some record =>
    match record.derivedKey? defaultType with
    | none => return ⟨none, some "record has neither key nor id"⟩
    | some key => (b.upsert key record now).told (slotOf key)

/-- Writes the records of a sync, up to where the store breaks down. -/
def syncAll (b : Backend) (now : UInt64) : List Value → Action Store.Panic (List Slot)
  | [] => return []
  | v :: rest => do
    let slot ← syncOne b now v
    let slots ← syncAll b now rest
    return slot :: slots

/-- The reply to a sync. -/
def syncReply (now : UInt64) (slots : List Slot) : Reply :=
  ok [("synced", .ofCount (slots.countP Slot.success)),
    ("results", .array (slots.map Slot.toValue)),
    ("timestamp", .ofWord now)]

/-- The records that a sync brings. -/
def syncRecords (board : Board) (r : Request) : Except Halt (List Value) := do
  (SyncBody.decode (← bodyOf board r)).mapError .failure

/-- Takes a sync. -/
def sync (board : Board) (b : Backend) (r : Request) : Action Halt Reply := do
  let records ← syncRecords board r
  let slots ← (syncAll b (clock r) records).told (·.mapError .panic)
  return syncReply (clock r) slots

end RecordBoard.Board
