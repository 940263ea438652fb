import RecordBoard.Proofs.Board.Writes
import RecordBoard.Proofs.Json.Nested

/-!
# A sync is its writes

A sync brings a list of items, and it does to the table what writing them one after the other does.
An item that is no record, or that does not say where it goes, is passed over; one that the store
fails to write leaves the table alone.  Neither keeps those behind it from being written, so as long
as no call breaks down, the answer has a slot for every item.

An item may have the key of one in front of it, and then it is stamped against that one.  That is
why what a slot says depends on the table that its item met, which is the one that the items in
front of it left.

The list comes bare or as the field `records` of an object.  What else is in the object does not
matter, but the field must not be written twice.

## Main definitions

* `HoldsBatch` — the two forms of a body.

## Main results

* `HoldsBatch.decode` — both forms are read as their items.
* `sync_is_its_writes` — the table that a sync leaves, and what its answer tells.
-/

namespace RecordBoard.Board

open Json (Value SpellsWithin)
open Store (Backend Table session)
open Http (Request Answer)

/-! ## The body -/

/-- The body of a sync holds a list of items. -/
inductive HoldsBatch (body : Bytes) (items : List Value) : Prop
  /-- It is the list. -/
  | bare (h : Json.decode body = .ok (.array items))
  /-- It is an object with the list as its only field `records`. -/
  | wrapped {front back : List (String × Value)}
      (h : Json.writtenFields body = .ok (front ++ ("records", .array items) :: back))
      (hothers : ∀ e ∈ front ++ back, e.1 ≠ "records")

theorem decode_of_read {body rest : Bytes} {items : List Value}
    (hread : SyncBody.read body = .ok (some items, rest)) (hend : Json.skipSpace rest = []) :
    SyncBody.decode body = .ok items := by
  have hnothing : Json.expectEnd rest = .ok () := by
    unfold Json.expectEnd
    rw [hend]
  unfold SyncBody.decode
  rw [hread]
  show ((Json.located body (Json.expectEnd rest)).mapError Failure.badBody >>= fun _ =>
    pure items) = _
  rw [hnothing]
  rfl

theorem ofFields?_of_single {front back : List (String × Value)} {items : List Value}
    (h : ∀ e ∈ front ++ back, e.1 ≠ "records") :
    SyncBody.ofFields? (front ++ ("records", .array items) :: back) = some items := by
  have hnone : ∀ fields : List (String × Value), (∀ e ∈ fields, e.1 ≠ "records") →
      fields.filter (fun e => e.1 == "records") = [] := by
    intro fields hfields
    refine List.filter_eq_nil_iff.2 fun e he => ?_
    simpa using hfields e he
  obtain ⟨hfront, hback⟩ := List.forall_mem_append.1 h
  unfold SyncBody.ofFields? SyncBody.occurrences
  rw [List.filter_append, List.filter_cons_of_pos (by rfl), hnone front hfront, hnone back hback]
  rfl

/-- Both forms are read as their items. -/
theorem HoldsBatch.decode {body : Bytes} {items : List Value} (h : HoldsBatch body items) :
    SyncBody.decode body = .ok items := by
  -- A value that stands alone is read with less fuel than the reader of a sync has for what is in
  -- it.
  have hagain := Json.readersContinue Json.endsValue_nil (Json.enough body - 1)
  cases h with
  | bare h =>
    obtain ⟨inside, rest, hhead, hitems, hend⟩ := Json.exists_items_of_decode h
    have hitems' := hagain.items (Json.enough body) (Json.maxDepth - 1) (Json.maxDepth - 1) inside
      (Nat.sub_le _ 1) (Nat.le_refl _) items rest hitems
    rw [List.append_nil, List.append_nil] at hitems'
    refine decode_of_read ?_ hend
    simp only [SyncBody.read, hhead, bind, Except.bind, hitems']
    rfl
  | @wrapped front back h hothers =>
    obtain ⟨inside, rest, hhead, hfields, hend⟩ := Json.writtenFields_eq_ok_iff.1 h
    have hfields' := hagain.fields (Json.enough body) (Json.maxDepth - 1) (Json.maxDepth - 1) inside
      (Nat.sub_le _ 1) (Nat.le_refl _) _ rest hfields
    rw [List.append_nil, List.append_nil] at hfields'
    refine decode_of_read ?_ hend
    simp only [SyncBody.read, hhead, bind, Except.bind, hfields', ofFields?_of_single hothers]
    rfl

/-- A text in a list is a batch of one item. -/
theorem HoldsBatch.inList {room : Nat} {text : Bytes} {v : Value} (h : SpellsWithin room text v)
    (hroom : room < Json.maxDepth) : HoldsBatch (Json.inList text) [v] :=
  .bare (Json.decode_of_spellsWithin h.inList hroom)

/-- So is the list as the field of an object, which takes one bracket more. -/
theorem HoldsBatch.inObject {room : Nat} {text : Bytes} {v : Value} (h : SpellsWithin room text v)
    (hroom : room + 1 < Json.maxDepth) :
    HoldsBatch (Json.inObject "records" (Json.inList text)) [v] :=
  @HoldsBatch.wrapped _ _ [] [] (Json.writtenFields_inObject h.inList hroom "records") (by simp)

/-! ## What is told of a slot -/

theorem told_key (slot : Slot) :
    slot.toValue.readBack.member? "key" = some (.ofString? slot.key) := by
  rw [← Value.readBack_ofString? slot.key]
  unfold Slot.toValue
  refine Value.member?_readBack [] fun e he => ?_
  cases herror : slot.error <;> simp [herror] at he
  · simp [he]
  · rcases he with rfl | rfl <;> simp

theorem told_success (slot : Slot) :
    slot.toValue.readBack.member? "success" = some (.boolean slot.success) := by
  rw [← Value.readBack_boolean slot.success]
  unfold Slot.toValue
  refine Value.member?_readBack [("key", .ofString? slot.key)] fun e he => ?_
  cases herror : slot.error <;> simp [herror] at he
  simp [he]

/-- Whether a slot that is told says that its item was written. -/
def saysSuccess (slot : Value) : Bool := (slot.member? "success").bind Value.asBool? == some true

theorem saysSuccess_slot (slot : Slot) : saysSuccess slot.toValue.readBack = slot.success := by
  rw [saysSuccess, told_success]
  cases slot.success <;> rfl

theorem told_results {a : Answer} {now : UInt64} {slots : List Slot}
    (hbody : a.body = (syncReply now slots).body.text) :
    a.told?.bind (Value.member? "results") =
      some (.array (slots.map fun slot => slot.toValue.readBack)) := by
  rw [a.told_of_field [("synced", .ofCount (slots.countP Slot.success))] (by simp) hbody,
    Value.readBack, Value.readBackItems_eq_map, List.map_map]
  rfl

theorem told_synced {a : Answer} {now : UInt64} {slots : List Slot}
    (hbody : a.body = (syncReply now slots).body.text) :
    a.told?.bind (Value.member? "synced") = some (.ofCount (slots.countP Slot.success)) := by
  rw [a.told_of_field [] (by simp) hbody, Value.ofCount, Record.readBack_ofWord]

/-! ## The answer -/

section Sync

variable {board : Board} {b : Backend} {t : Table} {r : Request} {items : List Value}
  (hmethod : r.method = "POST") (hresource : Resource.ofTarget r.target = .sync)

include hmethod hresource

theorem carryOut_of_sync (board : Board) (b : Backend) (t : Table) :
    carryOut board b t r = sync board b r t := by
  unfold carryOut
  rw [hmethod, hresource]
  rfl

/-- What a sync comes to is decided by its items. -/
theorem carryOut_of_batch (hlength : r.body.length ≤ board.limits.body)
    (hitems : HoldsBatch r.body items) :
    carryOut board b t r = ((syncAll b (clock r) items t).1,
      ((syncAll b (clock r) items t).2.mapError .panic).map (syncReply (clock r))) := by
  have hrecords : syncRecords board r = .ok items := by
    unfold syncRecords bodyOf
    rw [if_neg (Nat.not_lt.2 hlength)]
    show (SyncBody.decode r.body).mapError Halt.failure = _
    rw [hitems.decode]
    rfl
  rw [carryOut_of_sync hmethod hresource, sync, hrecords, Store.Action.check_bind,
    Store.Action.bind_pure_apply]
  rfl

/-- Another body with the same items is answered alike. -/
theorem answer_of_same_batch (hadmits : board.guard.admits r.headers = true)
    (hlength : r.body.length ≤ board.limits.body) (hitems : HoldsBatch r.body items) {body : Bytes}
    (hlength' : body.length ≤ board.limits.body) (hitems' : HoldsBatch body items) :
    board.answer b t { r with body } = board.answer b t r := by
  have hoptions : r.method ≠ "OPTIONS" := by
    rw [hmethod]
    decide
  have hsame : outcome board b t { r with body } = outcome board b t r := by
    rw [outcome_of_admitted board b t (r := r) hadmits,
      outcome_of_admitted board b t (r := { r with body }) hadmits,
      carryOut_of_batch hmethod hresource hlength hitems]
    exact carryOut_of_batch (r := { r with body }) hmethod hresource hlength' hitems'
  rw [answer_of_method board b t (r := r) hoptions,
    answer_of_method board b t (r := { r with body }) hoptions, hsame]
  rfl

end Sync

/--
**A sync is the sequence of its writes.**  If no call breaks down, a sync that the guard lets
through, of a body that is not too long and holds a list, is answered with 200.  It leaves the table
that is left by writing, in order, the items that are records and say where they go.  The answer has
one slot for each item: it tells the key that the item asks for, and success if and only if writing
it on the table that the items in front of it left comes to something; and it tells how many slots
are successes.  It does not matter which body the list comes in.
-/
theorem sync_is_its_writes (board : Board) {b : Backend} (hb : b.NeverPanics) (t : Table)
    {r : Request} {items : List Value} (hmethod : r.method = "POST")
    (hresource : Resource.ofTarget r.target = .sync) (hadmits : board.guard.admits r.headers = true)
    (hlength : r.body.length ≤ board.limits.body) (hitems : HoldsBatch r.body items) :
    (board.answer b t r).2.status = 200 ∧
    (board.answer b t r).1 = (session b t (upserts (clock r) items)).1 ∧
    (∃ results, (board.answer b t r).2.told?.bind (Value.member? "results") =
      some (.array results) ∧
      results.length = items.length ∧
      (∀ (i : Nat) (v : Value), items[i]? = some v → ∃ slot, results[i]? = some slot ∧
        slot.member? "key" = some (.ofString? ((syncDraft? v).map (·.1))) ∧
        slot.member? "success" = some (.boolean (isWritten b (clock r)
          (session b t (upserts (clock r) (items.take i))).1 v))) ∧
      (board.answer b t r).2.told?.bind (Value.member? "synced") =
        some (.ofCount (results.countP saysSuccess))) ∧
    ∀ body : Bytes, HoldsBatch body items → body.length ≤ board.limits.body →
      board.answer b t { r with body } = board.answer b t r := by
  obtain ⟨slots, hall, hslots, htells⟩ := exists_slots_of_syncAll hb (clock r) t items
  have hoptions : r.method ≠ "OPTIONS" := by
    rw [hmethod]
    decide
  have hcarried : carryOut board b t r =
      ((session b t (upserts (clock r) items)).1, .ok (syncReply (clock r) slots)) := by
    rw [carryOut_of_batch hmethod hresource hlength hitems, hall]
    rfl
  obtain ⟨hstatus, htable⟩ := answer_of_carried hoptions hadmits hcarried
  have hbody := (answer_of_reply (b := b) (t := t) hoptions
    (by rw [outcome_of_admitted board b t hadmits, hcarried])).2 (by rw [hmethod]; decide)
  refine ⟨hstatus, htable, ?_, fun body hitems' hlength' =>
    answer_of_same_batch hmethod hresource hadmits hlength hitems hlength' hitems'⟩
  refine ⟨slots.map fun slot => slot.toValue.readBack, told_results hbody, ?_, ?_, ?_⟩
  · rw [List.length_map, hslots]
  · intro i v hv
    obtain ⟨slot, hslot, hof⟩ := htells i v hv
    refine ⟨slot.toValue.readBack, ?_, ?_, ?_⟩
    · rw [List.getElem?_map, hslot]
      rfl
    · rw [told_key, hof.key]
    · rw [told_success, hof.success]
  · have hcount : (slots.map fun slot => slot.toValue.readBack).countP saysSuccess =
        slots.countP Slot.success := by
      rw [List.countP_map]
      exact List.countP_congr fun slot _ => by rw [Function.comp_apply, saysSuccess_slot]
    rw [hcount, told_synced hbody]

/-- Two records with one key, one with another key between them, and two items that say nothing of
where they go, of which one is no record. -/
def fiveItems : List Value := [
  .object [("created_at", .ofWord 3), ("key", .string "a"), ("n", .ofWord 1)],
  .object [("key", .string "b")],
  .ofWord 7,
  .object [("name", .string "c")],
  .object [("key", .string "a"), ("n", .ofWord 2)]]

theorem spellsWithin_fiveItems :
    SpellsWithin 2 (Value.array fiveItems).encode (.array fiveItems) := by
  have hwithin : (Value.array fiveItems).Within 2 := by
    refine ⟨?_, by decide⟩
    simp only [fiveItems, Value.IsOrdered, Value.ItemsOrdered, Value.FieldsOrdered, Value.ofWord]
    decide
  have hspells := Json.spellsWithin_encode hwithin
  rwa [show (Value.array fiveItems).reread = .array fiveItems by
    simp [fiveItems, Value.reread, Value.rereadItems, Value.rereadFields,
      Record.reread_ofWord]] at hspells

/-- A store that cannot write under the key `b`. -/
def fullAtB : Backend := .subject [⟨.put, some "b", .fails ⟨.writing, "disk full"⟩⟩]

/-- Whether an item is written on the table that it meets in a batch, beside the key that it asks
for. -/
def slotsOf (b : Backend) (now : UInt64) (t : Table) (items : List Value) :
    List (Option String × Bool) :=
  items.mapIdx fun i v =>
    ((syncDraft? v).map (·.1), isWritten b now (session b t (upserts now (items.take i))).1 v)

theorem slotsOf_fiveItems : slotsOf fullAtB 7 .empty fiveItems =
    [(some "a", true), (some "b", false), (none, false), (none, false), (some "a", true)] := by
  decide +kernel

/-- What a client reads of the slots. -/
theorem map_slots {b : Backend} {now : UInt64} {t : Table} {items results : List Value}
    (hlength : results.length = items.length)
    (hslots : ∀ (i : Nat) (v : Value), items[i]? = some v → ∃ slot, results[i]? = some slot ∧
      slot.member? "key" = some (.ofString? ((syncDraft? v).map (·.1))) ∧
      slot.member? "success" = some (.boolean (isWritten b now
        (session b t (upserts now (items.take i))).1 v))) :
    results.map (fun slot => (slot.member? "key", slot.member? "success")) =
      (slotsOf b now t items).map fun e => (some (.ofString? e.1), some (.boolean e.2)) := by
  refine List.ext_getElem? fun i => ?_
  rw [slotsOf, List.getElem?_map, List.getElem?_map, List.getElem?_mapIdx]
  cases hitem : items[i]? with
  | none =>
    rw [List.getElem?_eq_none (hlength ▸ List.getElem?_eq_none_iff.1 hitem)]
    rfl
  | some v =>
    obtain ⟨slot, hslot, hkey, hsuccess⟩ := hslots i v hitem
    rw [hslot, Option.map_some, hkey, hsuccess]
    rfl

/-- The items are brought to a store that cannot write one of them: the second record under `a`
takes the place of the first and keeps its moment. -/
theorem sync_of_fiveItems :
    ∃ (board : Board) (r : Request) (results : List Value),
      Board.ofSettings { ({} : Settings) with apiKey := some "k" } = .ok board ∧
      r = carrying "k" "POST" "/sync" (Value.array fiveItems).encode 7 ∧
      (board.answer fullAtB .empty r).2.status = 200 ∧
      (board.answer fullAtB .empty r).1.entries =
        [("a", Utf8.encode "\x7b\"created_at\":3,\"key\":\"a\",\"n\":2,\"updated_at\":7\x7d")] ∧
      (board.answer fullAtB .empty r).2.told?.bind (Value.member? "results") =
        some (.array results) ∧
      results.map (fun slot => (slot.member? "key", slot.member? "success")) =
        [(some "a", true), (some "b", false), (none, false), (none, false), (some "a", true)].map
          (fun e => (some (.ofString? e.1), some (.boolean e.2))) ∧
      (board.answer fullAtB .empty r).2.told?.bind (Value.member? "synced") = some (.ofCount 2) ∧
      board.answer fullAtB .empty { r with body := Json.inObject "records" r.body } =
        board.answer fullAtB .empty r := by
  obtain ⟨board, hboard⟩ := exists_board "k" (by decide)
  have hpanics : fullAtB.NeverPanics := by
    intro f hf p
    rw [List.mem_singleton.1 hf]
    nofun
  have hlimit : ∀ body : Bytes, body.length ≤ 33554432 → body.length ≤ board.limits.body := by
    rw [hboard.limits]
    exact fun _ h => h
  obtain ⟨hstatus, htable, ⟨results, hresults, hlength, hslots, hsynced⟩, hsame⟩ :=
    sync_is_its_writes board hpanics .empty
      (r := carrying "k" "POST" "/sync" (Value.array fiveItems).encode 7) rfl
      (by decide : Resource.ofTarget (Http.Target.ofText "/sync") = .sync)
      (hboard.admits_carrying _ _ _ _)
      (hlimit _ (by decide +kernel))
      (.bare (Json.decode_of_spellsWithin spellsWithin_fiveItems (by decide)))
  have htold := map_slots hlength hslots
  have hclock : clock (carrying "k" "POST" "/sync" (Value.array fiveItems).encode 7) = 7 := rfl
  rw [hclock, slotsOf_fiveItems] at htold
  have hcount : results.countP saysSuccess = 2 := by
    show results.countP
      ((fun told : Option Value × Option Value => told.2.bind Value.asBool? == some true) ∘
      fun slot => (slot.member? "key", slot.member? "success")) = 2
    rw [← List.countP_map, htold]
    rfl
  have hentries : (session fullAtB .empty (upserts 7 fiveItems)).1.entries =
      [("a", Utf8.encode "\x7b\"created_at\":3,\"key\":\"a\",\"n\":2,\"updated_at\":7\x7d")] := by
    decide +kernel
  refine ⟨board, _, results, hboard.settings, rfl, hstatus, ?_, hresults, htold, ?_, ?_⟩
  · rw [htable, hclock, hentries]
  · rw [hsynced, hcount]
  · refine hsame _ (@HoldsBatch.wrapped _ _ [] [] ?_ (by simp)) (hlimit _ (by decide +kernel))
    exact Json.writtenFields_inObject spellsWithin_fiveItems (by decide) "records"

end RecordBoard.Board
