import RecordBoard.Proofs.Board.Writes
import RecordBoard.Proofs.Record.Whole

/-!
# Putting a record in its place

Two requests name the record that they write by its key in the path: one brings the whole record,
the other a status for the record that is there.  Both are answered with 200 if and only if the
record is written, and then the table differs from the one before in that record and in nothing
else.  A third brings a record to be made, under the key that is found for it, and is answered with
201.

## Main results

* `stored_of_put`, `stored_of_move` — what an answer with status 200 says about the table.
* `stored_of_create` — what an answer with status 201 says about it, on any store.
* `getRecord_of_upsert` — what was put is found in its place.
* `answer_of_put`, `answer_of_create` — a record that can be read is written, if the one in its
  place can be read.
-/

namespace RecordBoard.Board

open Json (Value)
open Store (Action Backend Table)
open Http (Request Answer)

/-! ## Calls within requests -/

theorem performing_of_ok {α : Type} {action : Action Store.Trouble α} {t new : Table} {a : α}
    (h : action t = (new, .ok a)) : performing action t = (new, .ok a) := by
  unfold performing Action.told
  rw [h]
  rfl

theorem performing_of_error {α : Type} {action : Action Store.Trouble α} {t new : Table}
    {e : Store.Trouble} (h : action t = (new, .error e)) :
    performing action t = (new, .error (.ofTrouble e)) := by
  unfold performing Action.told
  rw [h]
  rfl

theorem of_performing {α : Type} {action : Action Store.Trouble α} {t new : Table} {a : α}
    (h : performing action t = (new, .ok a)) : action t = (new, .ok a) := by
  obtain ⟨htable, hresult⟩ := Prod.mk.inj h
  exact Prod.ext htable (ok_of_mapError hresult)

/-! ## Drafts that are written -/

/-- A write that came to something found a record in its place that can be read, or none, and was
put there. -/
theorem exists_of_upsert {b : Backend} {t new : Table} {key : String} {record stored : Record}
    {now : UInt64} (h : b.upsert key record now t = (new, .ok stored)) :
    ∃ previous, b.getRecord t key = .ok previous ∧
      stored = record.stamp key previous now ∧ b.put key stored.encode t = (new, .ok ()) := by
  obtain ⟨previous, hprevious, h⟩ := Action.exists_of_reading h
  obtain ⟨_, _, hput, h⟩ := Action.exists_of_bind h
  cases h
  exact ⟨previous, hprevious, rfl, hput⟩

/-- What was put is in shape if what was brought is. -/
theorem within_of_upsert {t new : Table} {key : String} {record stored : Record} {now : UInt64}
    (hrecord : record.toValue.Within Json.maxDepth)
    (h : Backend.direct.upsert key record now t = (new, .ok stored)) :
    stored.toValue.Within Json.maxDepth := by
  obtain ⟨previous, hprevious, rfl, -⟩ := exists_of_upsert h
  refine Record.within_stamp key now hrecord fun p hp => ?_
  rw [hp] at hprevious
  obtain ⟨_, -, hdecode⟩ := Store.exists_value_of_getRecord hprevious
  exact Record.within_of_decode hdecode

/-- What was put is found in its place, as it is read where it was written. -/
theorem getRecord_of_upsert {t new : Table} {key : String} {record stored : Record} {now : UInt64}
    (hrecord : record.toValue.Within Json.maxDepth)
    (h : Backend.direct.upsert key record now t = (new, .ok stored)) :
    Backend.direct.getRecord new key = .ok (some stored.reread) := by
  have hstored := within_of_upsert hrecord h
  obtain ⟨-, -, -, hput⟩ := exists_of_upsert h
  cases hput
  exact Store.getRecord_of_decode (by rw [Table.get?_insert, if_pos rfl])
    (Record.decode_encode hstored)

/-- A record that is made is in shape if it was asked for in a body. -/
theorem within_of_assigned {random : Option Bytes} {body : Bytes} {asked record : Record}
    {key : String} (hasked : Record.decode body = .ok asked)
    (hassigned : assigned random asked = .ok (key, record)) :
    record.toValue.Within Json.maxDepth :=
  (of_assigned hassigned).2 (Json.maxDepth - 1) (Record.within_of_decode hasked)

section Draft

variable {α : Type} {t : Table} {now : UInt64} {key : α → String} {record : α → Record}
  {reply : α → Record → Reply} {draft : Except Halt α}

/-- What a request about one record came to, if it came to something: the record was written. -/
theorem upsert_of_writeDraft {b : Backend} {a : Reply}
    (h : (writeDraft b now key record reply draft t).2 = .ok a) :
    ∃ d stored, draft = .ok d ∧ a = reply d stored ∧ b.upsert (key d) (record d) now t =
      ((writeDraft b now key record reply draft t).1, .ok stored) := by
  obtain ⟨last, hlast⟩ : ∃ last, writeDraft b now key record reply draft t = (last, .ok a) :=
    ⟨_, Prod.ext rfl h⟩
  rw [hlast]
  obtain ⟨d, hd, hlast⟩ := Action.exists_of_check hlast
  obtain ⟨_, stored, hwritten, hlast⟩ := Action.exists_of_bind hlast
  cases hlast
  exact ⟨d, stored, hd, rfl, of_performing hwritten⟩

/-- It replaced a record that can be read, or none. -/
theorem exists_of_writeDraft {a : Reply}
    (h : (writeDraft .direct now key record reply draft t).2 = .ok a) :
    ∃ d previous stored, draft = .ok d ∧ Backend.direct.getRecord t (key d) = .ok previous ∧
      stored = (record d).stamp (key d) previous now ∧ a = reply d stored ∧
      (writeDraft .direct now key record reply draft t).1 = t.insert (key d) stored.encode := by
  obtain ⟨d, stored, hd, ha, hwritten⟩ := upsert_of_writeDraft h
  obtain ⟨previous, hprevious, hstored, hput⟩ := exists_of_upsert hwritten
  exact ⟨d, previous, stored, hd, hprevious, hstored, ha, (congrArg Prod.fst hput).symm⟩

variable {d : α} (hdraft : draft = .ok d)

include hdraft

/-- A draft is written if the record in its place can be read, or there is none. -/
theorem writeDraft_of_readable {previous : Option Record}
    (h : Backend.direct.getRecord t (key d) = .ok previous) :
    writeDraft .direct now key record reply draft t =
      (t.insert (key d) ((record d).stamp (key d) previous now).encode,
        .ok (reply d ((record d).stamp (key d) previous now))) := by
  rw [hdraft, writeDraft, Action.check_bind]
  exact Action.bind_of_ok (performing_of_ok (Store.upsert_of_ok h (record d) now))

theorem writeDraft_of_unreadable {e : Store.Trouble}
    (h : Backend.direct.getRecord t (key d) = .error e) :
    writeDraft .direct now key record reply draft t = (t, .error (.ofTrouble e)) := by
  rw [hdraft, writeDraft, Action.check_bind]
  exact Action.bind_of_error (performing_of_error (Store.upsert_of_error h (record d) now))

end Draft

theorem carryOut_of_putMethod (board : Board) (t : Table) {r : Request} {segment : String}
    (hmethod : r.method = "PUT") (hresource : Resource.ofTarget r.target = .record segment) :
    carryOut board .direct t r =
      writeDraft .direct (clock r) Prod.fst Prod.snd putReply (putDraft board segment r) t := by
  unfold carryOut
  rw [hmethod, hresource, ← putRecord_eq]
  rfl

/-- An answer with status 200 to a request that puts a record says that the record was written. -/
theorem stored_of_put {board : Board} {t : Table} {r : Request} {key : String}
    (hput : Asks "PUT" key r) (hstatus : (board.answer .direct t r).2.status = 200) :
    ∃ record previous, Record.decode r.body = .ok record ∧
      Backend.direct.getRecord t key = .ok previous ∧
      (board.answer .direct t r).1 = t.insert key (record.stamp key previous (clock r)).encode ∧
      (board.answer .direct t r).2.body =
        (putReply (key, record) (record.stamp key previous (clock r))).body.text := by
  obtain ⟨hmethod, segment, hresource, hkey⟩ := hput
  obtain ⟨reply, hreply, htable, hbody⟩ := reply_of_carried (by rw [hmethod]; decide)
    (carryOut_of_putMethod board t hmethod hresource) (by rw [hstatus]; decide)
  obtain ⟨d, previous, stored, hd, hprevious, rfl, rfl, hwritten⟩ := exists_of_writeDraft hreply
  obtain ⟨key', hkey', hd⟩ := exists_of_bind hd
  obtain ⟨body, hbodyOf, hd⟩ := exists_of_bind hd
  obtain ⟨record, hrecord, hd⟩ := exists_of_bind hd
  cases hd
  rw [hkey] at hkey'
  cases hkey'
  refine ⟨record, previous, eq_body_of_bodyOf hbodyOf ▸ ok_of_mapError hrecord, hprevious,
    htable.trans hwritten, ?_⟩
  exact hbody (by rw [hmethod]; decide)

theorem carryOut_of_moveMethod {board : Board} {t : Table} {r : Request} {segment : String}
    (hmethod : r.method = "PUT") (hresource : Resource.ofTarget r.target = .status segment) :
    carryOut board .direct t r =
      writeDraft .direct (clock r) (·.2.1) (·.2.2) moveReply (moveDraft board t segment r) t := by
  unfold carryOut
  rw [hmethod, hresource, ← moveRecord_eq]
  rfl

theorem carryOut_of_createMethod (board : Board) (b : Backend) (t : Table) {r : Request}
    (hmethod : r.method = "POST") (hresource : Resource.ofTarget r.target = .records) :
    carryOut board b t r =
      writeDraft b (clock r) Prod.fst Prod.snd createReply (createDraft board r) t := by
  unfold carryOut
  rw [hmethod, hresource, ← createRecord_eq]
  rfl

/-- A request to make a record. -/
def AsksToCreate (r : Request) : Prop := r.method = "POST" ∧ Resource.ofTarget r.target = .records

/-- An answer with status 201 to a request that makes a record says that the record was written. -/
theorem stored_of_create {board : Board} {b : Backend} {t : Table} {r : Request}
    (hcreate : AsksToCreate r) (hstatus : (board.answer b t r).2.status = 201) :
    ∃ asked key record stored, Record.decode r.body = .ok asked ∧
      assigned r.random asked = .ok (key, record) ∧
      b.upsert key record (clock r) t = ((board.answer b t r).1, .ok stored) ∧
      (board.answer b t r).2.body = (createReply (key, record) stored).body.text := by
  obtain ⟨hmethod, hresource⟩ := hcreate
  obtain ⟨reply, hreply, htable, hbody⟩ := reply_of_carried (by rw [hmethod]; decide)
    (carryOut_of_createMethod board b t hmethod hresource) (by rw [hstatus]; decide)
  obtain ⟨⟨key, record⟩, stored, hd, rfl, hwritten⟩ := upsert_of_writeDraft hreply
  rw [← htable] at hwritten
  obtain ⟨body, hbodyOf, hd⟩ := exists_of_bind hd
  obtain ⟨asked, hasked, hd⟩ := exists_of_bind hd
  exact ⟨asked, key, record, stored, eq_body_of_bodyOf hbodyOf ▸ ok_of_mapError hasked,
    ok_of_mapError hd,
    hwritten, hbody (by rw [hmethod]; decide)⟩

theorem createDraft_of_decode {board : Board} {r : Request} {asked : Record}
    {draft : String × Record} (hlength : r.body.length ≤ board.limits.body)
    (hasked : Record.decode r.body = .ok asked) (hdraft : assigned r.random asked = .ok draft) :
    createDraft board r = .ok draft := by
  unfold createDraft bodyOf
  rw [if_neg (Nat.not_lt.2 hlength)]
  show (parsed (Record.decode r.body) >>= _) = _
  rw [hasked]
  show (assigned r.random asked).mapError Halt.failure = _
  rw [hdraft]
  rfl

theorem carryOut_of_delivery {board : Board} (b : Backend) (t : Table) {r : Request}
    (hmethod : r.method = "POST") (hresource : Resource.ofTarget r.target = .deliveries) :
    carryOut board b t r = takeDelivery board b r t := by
  unfold carryOut
  rw [hmethod, hresource]
  rfl

/-- A request to move the record under a key. -/
def AsksToMove (key : String) (r : Request) : Prop :=
  r.method = "PUT" ∧ ∃ segment, Resource.ofTarget r.target = .status segment ∧
    keyOf segment = .ok key

/-- An answer with status 200 to a request that moves a record says that the record was written. -/
theorem stored_of_move {board : Board} {t : Table} {r : Request} {key : String}
    (hmove : AsksToMove key r) (hstatus : (board.answer .direct t r).2.status = 200) :
    ∃ old status, Backend.direct.getRecord t key = .ok (some old) ∧
      (board.answer .direct t r).1 =
        t.insert key
          ((old.set "status" (.string status.text)).stamp key (some old) (clock r)).encode ∧
      (board.answer .direct t r).2.body =
        (moveReply (status, key, old.set "status" (.string status.text))
          ((old.set "status" (.string status.text)).stamp key (some old) (clock r))).body.text := by
  obtain ⟨hmethod, segment, hresource, hkey⟩ := hmove
  obtain ⟨reply, hreply, htable, hbody⟩ := reply_of_carried (by rw [hmethod]; decide)
    (carryOut_of_moveMethod hmethod hresource) (by rw [hstatus]; decide)
  obtain ⟨d, previous, stored, hd, hprevious, rfl, rfl, hwritten⟩ := exists_of_writeDraft hreply
  obtain ⟨key', hkey', hd⟩ := exists_of_bind hd
  rw [hkey] at hkey'
  cases hkey'
  obtain ⟨body, -, hd⟩ := exists_of_bind hd
  obtain ⟨name, -, hd⟩ := exists_of_bind hd
  split at hd
  · cases hd
  next status _ =>
    obtain ⟨found, hfound, hd⟩ := exists_of_bind hd
    cases found with
    | none => cases hd
    | some old =>
      cases hd
      have hold := ok_of_mapError hfound
      rw [hold] at hprevious
      cases hprevious
      exact ⟨old, status, hold, htable.trans hwritten, hbody (by rw [hmethod]; decide)⟩

/-- The record without fields is read where it is written. -/
theorem decode_empty : Record.decode Record.empty.encode = .ok Record.empty :=
  Record.decode_encode Record.within_empty

theorem putDraft_of_decode {board : Board} {segment key : String} {r : Request} {record : Record}
    (hkey : keyOf segment = .ok key) (hlength : r.body.length ≤ board.limits.body)
    (hrecord : Record.decode r.body = .ok record) :
    putDraft board segment r = .ok (key, record) := by
  unfold putDraft bodyOf
  rw [hkey, if_neg (Nat.not_lt.2 hlength)]
  show (parsed (Record.decode r.body) >>= _) = _
  rw [hrecord]
  rfl

/-- A record that can be read and is not too long is written, if the one in its place can be
read. -/
theorem answer_of_put {board : Board} {t : Table} {r : Request} {key : String} {record : Record}
    {previous : Option Record} (hput : Asks "PUT" key r)
    (hadmits : board.guard.admits r.headers = true) (hlength : r.body.length ≤ board.limits.body)
    (hrecord : Record.decode r.body = .ok record)
    (hprevious : Backend.direct.getRecord t key = .ok previous) :
    (board.answer .direct t r).2.status = 200 ∧
      (board.answer .direct t r).1 = t.insert key (record.stamp key previous (clock r)).encode := by
  obtain ⟨hmethod, segment, hresource, hkey⟩ := hput
  have hcarried := carryOut_of_putMethod board t hmethod hresource
  rw [writeDraft_of_readable (putDraft_of_decode hkey hlength hrecord) hprevious] at hcarried
  exact answer_of_carried (by rw [hmethod]; decide) hadmits hcarried

/-- A record that is made is written under its key, if the one in its place can be read. -/
theorem answer_of_create {board : Board} {t : Table} {r : Request} {asked record : Record}
    {key : String} {previous : Option Record} (hcreate : AsksToCreate r)
    (hadmits : board.guard.admits r.headers = true) (hlength : r.body.length ≤ board.limits.body)
    (hasked : Record.decode r.body = .ok asked)
    (hassigned : assigned r.random asked = .ok (key, record))
    (hprevious : Backend.direct.getRecord t key = .ok previous) :
    (board.answer .direct t r).2.status = 201 ∧
      (board.answer .direct t r).2.body =
        (createReply (key, record) (record.stamp key previous (clock r))).body.text ∧
      (board.answer .direct t r).1 = t.insert key (record.stamp key previous (clock r)).encode := by
  obtain ⟨hmethod, hresource⟩ := hcreate
  have hoptions : r.method ≠ "OPTIONS" := by
    rw [hmethod]
    decide
  have hcarried := carryOut_of_createMethod board .direct t hmethod hresource
  rw [writeDraft_of_readable (createDraft_of_decode hlength hasked hassigned) hprevious] at hcarried
  obtain ⟨hstatus, htable⟩ := answer_of_carried hoptions hadmits hcarried
  exact ⟨hstatus, body_of_carried hoptions hadmits (congrArg Prod.snd hcarried)
    (by rw [hmethod]; decide), htable⟩

/-- A record that is put under the key `a`, with the secret `k`. -/
def putOf (record : Record) (now : Int) : Request := carrying "k" "PUT" "/state/a" record.encode now

theorem asks_putOf (record : Record) (now : Int) : Asks "PUT" "a" (putOf record now) :=
  ⟨rfl, "a", (by decide : Resource.ofTarget (Http.Target.ofText "/state/a") = _), rfl⟩

theorem decode_putOf {record : Record} (h : Record.decode record.encode = .ok record) (now : Int) :
    Record.decode (putOf record now).body = .ok record := h

/-- A reading of the record that it writes. -/
theorem asks_smallGet (now : Int) : Asks "GET" "a" (carrying "k" "GET" "/state/a" [] now) :=
  ⟨rfl, "a", (by decide : Resource.ofTarget (Http.Target.ofText "/state/a") = _), rfl⟩

/-- A board that lets it through writes it. -/
theorem answer_of_putOf {board : Board} (hboard : board.IsDefault "k") {record : Record}
    (hrecord : Record.decode record.encode = .ok record) (hlength : record.encode.length ≤ 33554432)
    (now : Int) {t : Table} {previous : Option Record}
    (hprevious : Backend.direct.getRecord t "a" = .ok previous) :
    (board.answer .direct t (putOf record now)).2.status = 200 ∧
      (board.answer .direct t (putOf record now)).1 =
        t.insert "a" (record.stamp "a" previous (clockSeconds now)).encode := by
  have hfits : (putOf record now).body.length ≤ board.limits.body := by
    rw [hboard.limits]
    exact hlength
  exact answer_of_put (asks_putOf record now)
    (hboard.admits_carrying _ _ _ _) hfits hrecord hprevious

/-- What was written so is read back. -/
theorem getRecord_of_putOf {record : Record} (hrecord : Record.decode record.encode = .ok record)
    (previous : Option Record) (t : Table) (now : UInt64)
    (hprevious : ∀ p, previous = some p → p.toValue.Within Json.maxDepth) :
    Backend.direct.getRecord (t.insert "a" (record.stamp "a" previous now).encode) "a" =
      .ok (some (record.stamp "a" previous now).reread) :=
  Store.getRecord_of_decode (by rw [Table.get?_insert, if_pos rfl])
    (Record.decode_encode
      (Record.within_stamp "a" now (Record.within_of_decode hrecord) hprevious))

/-- A record without doubles is found as it was stamped. -/
theorem found_of_putOf {board : Board} (hboard : board.IsDefault "k") {record : Record}
    (hwithin : record.toValue.Within Json.maxDepth) (hwhole : record.toValue.IsWhole)
    (hlength : record.encode.length ≤ 33554432) (now : Int) {t : Table} {previous : Option Record}
    (hprevious : Backend.direct.getRecord t "a" = .ok previous)
    (hcarried : ∀ v, previous.bind (Record.present? "created_at") = some v → v.IsWhole) :
    (board.answer .direct t (putOf record now)).2.status = 200 ∧
      Backend.direct.getRecord (board.answer .direct t (putOf record now)).1 "a" =
        .ok (some (record.stamp "a" previous (clockSeconds now))) := by
  have hrecord := Record.decode_of_isWhole hwhole hwithin
  obtain ⟨hstatus, htable⟩ := answer_of_putOf hboard hrecord hlength now hprevious
  refine ⟨hstatus, ?_⟩
  rw [htable, getRecord_of_putOf hrecord previous t _ fun p hp => ?_,
    Record.reread_of_isWhole (Record.isWhole_stamp "a" hwhole hcarried)]
  obtain ⟨_, -, hdecode⟩ := Store.exists_value_of_getRecord (hp ▸ hprevious)
  exact Record.within_of_decode hdecode

/-- The request with a record without fields. -/
def smallPut (now : Int) : Request := putOf Record.empty now

theorem asks_smallPut (now : Int) : Asks "PUT" "a" (smallPut now) := asks_putOf _ now

theorem answer_of_smallPut {board : Board} (hboard : board.IsDefault "k") (now : Int) {t : Table}
    {previous : Option Record} (hprevious : Backend.direct.getRecord t "a" = .ok previous) :
    (board.answer .direct t (smallPut now)).2.status = 200 ∧
      (board.answer .direct t (smallPut now)).1 =
        t.insert "a" (Record.empty.stamp "a" previous (clockSeconds now)).encode :=
  answer_of_putOf hboard decode_empty (by decide) now hprevious

theorem getRecord_of_smallPut (previous : Option Record) (t : Table) (now : UInt64)
    (hprevious : ∀ p, previous = some p → p.toValue.Within Json.maxDepth) :
    Backend.direct.getRecord (t.insert "a" (Record.empty.stamp "a" previous now).encode) "a" =
      .ok (some (Record.empty.stamp "a" previous now).reread) :=
  getRecord_of_putOf decode_empty previous t now hprevious

/-- A record as it may be brought: a text that is written with escapes, the integers of sixty-four
bits at both ends, lists and objects in each other, and a key and moments of writing that are none.
-/
def visit : Record where
  fields := [
    ("bounds", .array [.number (.integer (-9223372036854775808) (by decide)),
      .number (.integer 18446744073709551615 (by decide))]),
    ("created_at", .array [.null]),
    ("key", .boolean true),
    ("note", .string "says \"é\\\"\n"),
    ("parts", .object [("inner", .array [.object [("", .string "\t")], .array []])]),
    ("updated_at", .string "soon")]

example : visit.text = "\x7b\"bounds\":[-9223372036854775808,18446744073709551615]," ++
    "\"created_at\":[null],\"key\":true,\"note\":\"says \\\"é\\\\\\\"\\n\"," ++
    "\"parts\":\x7b\"inner\":[\x7b\"\":\"\\t\"\x7d,[]]\x7d,\"updated_at\":\"soon\"\x7d" := by
  decide +kernel

theorem within_visit : visit.toValue.Within Json.maxDepth := by
  refine ⟨?_, by decide⟩
  simp only [visit, Record.toValue, Value.IsOrdered, Value.ItemsOrdered, Value.FieldsOrdered]
  decide

theorem isWhole_visit : visit.toValue.IsWhole := by
  simp [visit, Record.toValue, Value.IsWhole, Value.ItemsWhole, Value.FieldsWhole]

theorem decode_visit : Record.decode visit.encode = .ok visit :=
  Record.decode_of_isWhole isWhole_visit within_visit

theorem length_visit : visit.encode.length ≤ 33554432 := by decide +kernel

/-- A record with a moment of its own, for others to take the place of. -/
def plan : Record where
  fields := [("created_at", .number (.integer (-3) (by decide))), ("name", .string "plan")]

theorem within_plan : plan.toValue.Within Json.maxDepth := by
  refine ⟨?_, by decide⟩
  simp only [plan, Record.toValue, Value.IsOrdered, Value.FieldsOrdered]
  decide

theorem isWhole_plan : plan.toValue.IsWhole := by
  simp [plan, Record.toValue, Value.IsWhole, Value.FieldsWhole]

theorem decode_plan : Record.decode plan.encode = .ok plan :=
  Record.decode_of_isWhole isWhole_plan within_plan

/-- A request to make a record of a text, with the secret `k` and these random octets. -/
def smallCreate (random : Option Bytes) (body : String) (now : Int) : Request :=
  { carrying "k" "POST" "/state" (Utf8.encode body) now with random }

theorem asksToCreate_smallCreate (random : Option Bytes) (body : String) (now : Int) :
    AsksToCreate (smallCreate random body now) :=
  ⟨rfl, (by decide : Resource.ofTarget (Http.Target.ofText "/state") = .records)⟩

/-- The record of a text, with the key that is assigned to it. -/
def draftOf? (random : Option Bytes) (body : String) : Option (String × Record) :=
  (Record.decode (Utf8.encode body)).toOption.bind fun asked => (assigned random asked).toOption

theorem exists_of_draftOf? {random : Option Bytes} {body : String} {draft : String × Record}
    (h : draftOf? random body = some draft) :
    ∃ asked, Record.decode (Utf8.encode body) = .ok asked ∧ assigned random asked = .ok draft := by
  obtain ⟨asked, hasked, hassigned⟩ := Option.bind_eq_some_iff.1 h
  exact ⟨asked, Record.decode_of_toOption hasked, ok_of_mem_toList (Option.mem_toList.2 hassigned)⟩

/-- A board that lets it through makes it, if the record in its place can be read, and it is found
there. -/
theorem answer_of_smallCreate {board : Board} (hboard : board.IsDefault "k") {random : Option Bytes}
    {body key : String} {record : Record} (now : Int) {t : Table} {previous : Option Record}
    (hlength : (Utf8.encode body).length ≤ 33554432)
    (hdraft : draftOf? random body = some (key, record))
    (hprevious : Backend.direct.getRecord t key = .ok previous) :
    (board.answer .direct t (smallCreate random body now)).2.status = 201 ∧
      (board.answer .direct t (smallCreate random body now)).2.body =
        (createReply (key, record) (record.stamp key previous (clockSeconds now))).body.text ∧
      (board.answer .direct t (smallCreate random body now)).1 =
        t.insert key (record.stamp key previous (clockSeconds now)).encode ∧
      Backend.direct.getRecord (board.answer .direct t (smallCreate random body now)).1 key =
        .ok (some (record.stamp key previous (clockSeconds now)).reread) := by
  obtain ⟨asked, hasked, hassigned⟩ := exists_of_draftOf? hdraft
  have hfits : (smallCreate random body now).body.length ≤ board.limits.body := by
    rw [hboard.limits]
    exact hlength
  have hadmits := hboard.admits_carrying "POST" "/state" (Utf8.encode body) now
  obtain ⟨hstatus, hbody, htable⟩ :=
    answer_of_create (asksToCreate_smallCreate random body now) hadmits hfits
    hasked hassigned hprevious
  refine ⟨hstatus, hbody, htable, ?_⟩
  rw [htable]
  exact getRecord_of_upsert (within_of_assigned hasked hassigned)
    (Store.upsert_of_ok hprevious record _)

end RecordBoard.Board
