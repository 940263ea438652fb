import RecordBoard.Proofs.Board.Put
import RecordBoard.Proofs.Store.Page

/-!
# Requests that meet no value that is no record

A write reads the record that it replaces, and a listing reads all records of a page, so a value
that is none makes requests fail that are not about it at all.  Where every value is a record no
request fails for that reason, and no slot of a sync does.

A record can be read again if its brackets nest no deeper than a reader follows.  The stamp keeps
that, so a table has only such records if requests bring only such records.

## Main definitions

* `CanBeRead` — a record that can be read again.
* `Halt.IsSpared` — an end that is no failure to read a value.

## Main results

* `holds_canBeRead` — every stored record can be read, if no action nests too deep.
* `spares_outcome` — if every value is a record, no request fails for one that is none.
* `slots_of_canBeRead` — nor does a slot of a sync.
-/

namespace RecordBoard

open Json (Value)

namespace Record

theorem within_reread {r : Record} (h : r.toValue.Within Json.maxDepth) :
    r.reread.toValue.Within Json.maxDepth :=
  within_of_decode (decode_encode h)

end Record

namespace Store

namespace Table

variable {t : Table} (ht : t.IsReadable "")

include ht

theorem IsReadable.getRecord (key : String) :
    ∃ found, Backend.direct.getRecord t key = .ok found := by
  cases hvalue : t.get? key with
  | none => exact ⟨none, getRecord_of_absent hvalue⟩
  | some value =>
    obtain ⟨r, hdecode⟩ := ht key value List.nil_prefix hvalue
    exact ⟨some r, getRecord_of_decode hvalue hdecode⟩

theorem IsReadable.upsert (key : String) (r : Record) (now : UInt64) :
    ∃ stored, (Backend.direct.upsert key r now t).2 = .ok stored := by
  obtain ⟨previous, hprevious⟩ := ht.getRecord key
  exact ⟨_, congrArg Prod.snd (upsert_of_ok hprevious r now)⟩

theorem IsReadable.mono (stem : String) : t.IsReadable stem :=
  fun key value _ hvalue => ht key value List.nil_prefix hvalue

end Table

end Store

namespace Board

open Store (Backend Table)
open Http (Request Answer)

/-! ## What is stored -/

/-- A record that can be read again. -/
def CanBeRead (_ : String) (r : Record) : Prop := r.toValue.Within Json.maxDepth

theorem isReadable_of_holds {t : Table} (h : t.Holds CanBeRead) : t.IsReadable "" := by
  intro key value _ hvalue
  obtain ⟨s, rfl, -, hs⟩ := h key value hvalue
  exact ⟨_, Record.decode_encode hs⟩

/-- A record can be read again that comes from records that can. -/
theorem canBeRead_stamp (key : String) {record : Record} (now : UInt64)
    (hrecord : record.toValue.Within Json.maxDepth) (previous : Option Record)
    (hprevious : ∀ p, previous = some p →
      ∃ s : Record, s.toValue.IsOrdered ∧ CanBeRead key s ∧ p = s.reread) :
    CanBeRead key (record.stamp key previous now) := by
  refine Record.within_stamp key now hrecord fun p hp => ?_
  obtain ⟨s, -, hs, rfl⟩ := hprevious p hp
  exact Record.within_reread hs

/-- Every record that a run leaves can be read, if no action nests too deep. -/
theorem holds_canBeRead (board : Board) {t : Table} (h : t.Holds CanBeRead) {rs : List Request}
    (haction : ∀ r ∈ rs, ActionWithin (Json.maxDepth - 2) r) :
    (board.run .direct t rs).1.Holds CanBeRead :=
  holds_run h fun _ _ r hr _ _ hbrings previous hprevious =>
    canBeRead_stamp _ (clock r) (within_of_brings (by decide) (haction r hr) hbrings) previous
      hprevious

/-! ## What does not fail -/

/-- The request did not end because a value cannot be read as a record. -/
def Halt.IsSpared (h : Halt) : Prop := ∀ f, h = .failure (.store f) → f.activity ≠ .deserializing

theorem Failure.isSpared {f : Failure} (h : ∀ g, f ≠ .store g) : (Halt.failure f).IsSpared := by
  intro g heq
  cases heq
  exact absurd rfl (h g)

/-- A call that returns is no failure. -/
theorem spares_calling {α : Type} {call : Except Store.Trouble α} (h : ∃ a, call = .ok a) :
    Ends Halt.IsSpared (calling call) := by
  obtain ⟨a, rfl⟩ := h
  exact .ok a

theorem spares_parsed {α : Type} (result : Except Json.Fault α) :
    Ends Halt.IsSpared (parsed result) :=
  .mapError fun _ _ => Failure.isSpared nofun

theorem spares_keyOf (segment : String) : Ends Halt.IsSpared (keyOf segment) := by
  unfold keyOf
  split
  · exact .ok _
  · exact .error (Failure.isSpared nofun)

theorem spares_bodyOf (board : Board) (r : Request) : Ends Halt.IsSpared (bodyOf board r) := by
  unfold bodyOf
  split
  · exact .error (Failure.isSpared nofun)
  · exact .ok _

theorem spares_assigned (random : Option Bytes) (record : Record) :
    Ends Halt.IsSpared ((assigned random record).mapError .failure) := by
  refine .mapError fun f hf => ?_
  cases hnone : f with
  | store g =>
    unfold assigned at hf
    split at hf
    · cases hf
    · dsimp only at hf
      split at hf <;> cases hf
      cases hnone
  | _ => exact Failure.isSpared nofun

theorem spares_syncRecords (board : Board) (r : Request) :
    Ends Halt.IsSpared (syncRecords board r) :=
  .bind (spares_bodyOf board r) fun body _ => .mapError fun f hf => by
    rcases ends_syncBody body f hf with rfl | ⟨g, rfl⟩ <;> exact Failure.isSpared nofun

theorem spares_deleteRecord (t : Table) (segment : String) :
    Ends Halt.IsSpared (deleteRecord .direct segment t).2 :=
  .check (spares_keyOf segment) fun _ _ => .andThen (spares_calling ⟨_, rfl⟩) fun _ _ => .ok _

/-- A sync fails as a whole only for what it brings. -/
theorem spares_sync (board : Board) (t : Table) (r : Request) :
    Ends Halt.IsSpared (sync board .direct r t).2 := by
  refine .check (spares_syncRecords board r) fun records _ => .andThen ?_ fun _ _ => .ok _
  obtain ⟨slots, hslots⟩ := exists_slots (b := .direct) trivial (clock r) t records
  show Ends _ ((syncAll .direct (clock r) records t).2.mapError Halt.panic)
  rw [hslots]
  exact .ok _

section Handlers

variable {t : Table} (ht : t.IsReadable "") (board : Board)

include ht

theorem spares_readRecord (segment : String) :
    Ends Halt.IsSpared (readRecord .direct segment t).2 := by
  refine .check (spares_keyOf segment) fun key _ =>
    .reading (spares_calling (ht.getRecord key)) fun found _ => ?_
  cases found with
  | none => exact .error (Failure.isSpared nofun)
  | some r => exact .ok _

/-- A listing fails at most for its cursor. -/
theorem spares_listing (stem : String) (limit : Nat) (cursor : Option String) :
    Ends Halt.IsSpared (calling (Backend.direct.listRecords t stem limit cursor)) := by
  cases cursor with
  | none =>
    exact spares_calling
      ⟨_, Table.listRecords_of_list (ht.mono stem) (Table.list_of_key t stem limit none)⟩
  | some text =>
    cases hcursor : Store.Cursor.decode text with
    | error f =>
      unfold Backend.listRecords
      rw [Table.list_of_badCursor hcursor]
      intro h hh g heq
      cases hh
      cases heq
      nofun
    | ok last =>
      exact spares_calling
        ⟨_, Table.listRecords_of_list (ht.mono stem) (Table.list_of_decode hcursor t stem limit)⟩

theorem spares_listRecords (target : Http.Target) :
    Ends Halt.IsSpared (listRecords board .direct target t).2 := by
  unfold listRecords
  dsimp only
  cases repeated? [] target.fields with
  | some name => exact .error (Failure.isSpared nofun)
  | none =>
    refine .check ?_ fun size _ => .reading (spares_listing ht _ size _) fun found _ => .ok _
    unfold pageSize
    split
    · exact .ok _
    · exact .error nofun

theorem spares_summary : Ends Halt.IsSpared (summary board .direct t).2 := by
  obtain ⟨found, hlist⟩ : ∃ found,
      Backend.direct.listRecords t "" board.limits.summary none = .ok found :=
    ⟨_, Table.listRecords_of_list ht (Table.list_of_key t "" board.limits.summary none)⟩
  refine .reading (spares_calling ?_) fun _ _ => .ok _
  unfold Backend.scan
  rw [hlist]
  exact ⟨_, rfl⟩

theorem spares_putRecord (segment : String) (r : Request) :
    Ends Halt.IsSpared (putRecord board .direct segment r t).2 :=
  .check (spares_keyOf segment) fun key _ => .check (spares_bodyOf board r) fun _ _ =>
    .check (spares_parsed _) fun record _ =>
      .andThen (spares_calling (ht.upsert key record (clock r))) fun _ _ => .ok _

theorem spares_createRecord (r : Request) : Ends Halt.IsSpared (createRecord board .direct r t).2 :=
  .check (spares_bodyOf board r) fun _ _ => .check (spares_parsed _) fun record _ =>
    .check (spares_assigned r.random record) fun draft _ =>
      .andThen (spares_calling (ht.upsert draft.1 draft.2 (clock r))) fun _ _ => .ok _

theorem spares_moveRecord (segment : String) (r : Request) :
    Ends Halt.IsSpared (moveRecord board .direct segment r t).2 := by
  refine .check (spares_keyOf segment) fun key _ => .check (spares_bodyOf board r) fun body _ =>
    .check (spares_parsed _) fun name _ => ?_
  cases Status.ofText? name with
  | none => exact .error (Failure.isSpared nofun)
  | some status =>
    refine .reading (spares_calling (ht.getRecord key)) fun found _ => ?_
    cases found with
    | none => exact .error (Failure.isSpared nofun)
    | some record => exact .andThen (spares_calling (ht.upsert _ _ _)) fun _ _ => .ok _

theorem spares_takeDelivery (r : Request) :
    Ends Halt.IsSpared (takeDelivery board .direct r t).2 := by
  refine .check (spares_bodyOf board r) fun body _ => ?_
  cases (Delivery.rule? ((r.headers.text? eventHeader).getD "")).isNone with
  | true => exact .ok _
  | false =>
    refine .check (spares_parsed _) fun payload _ => ?_
    cases Delivery.normalize ((r.headers.text? eventHeader).getD "") payload (clock r) with
    | record draft => exact .andThen (spares_calling (ht.upsert _ _ _)) fun _ _ => .ok _
    | _ => exact .ok _

/-- If every value is a record, no request fails for one that is none. -/
theorem spares_outcome (r : Request) : Ends Halt.IsSpared (outcome board .direct t r).2 := by
  unfold outcome
  split
  · exact .error (Failure.isSpared nofun)
  unfold carryOut
  split
  · exact .ok _
  · exact .reading (spares_calling ⟨_, Table.list_of_key t "" 1 none⟩) fun _ _ => .ok _
  · exact spares_listRecords ht board r.target
  · exact spares_createRecord ht board r
  · exact spares_readRecord ht _
  · exact spares_putRecord ht board _ r
  · exact spares_deleteRecord t _
  · exact spares_moveRecord ht board _ r
  · exact spares_sync board t r
  · exact spares_takeDelivery ht board r
  · exact spares_summary ht board
  · exact .error (Failure.isSpared nofun)

end Handlers

/-! ## Slots of a sync -/

/-- A record of a sync that says where it goes is written, and can be read. -/
theorem syncOne_of_canBeRead {t : Table} (ht : t.Holds CanBeRead) (now : UInt64) {v : Value}
    (hv : v.Within Json.maxDepth) :
    ∃ new slot, syncOne .direct now v t = (new, .ok slot) ∧ new.Holds CanBeRead ∧
      (slot.key.isSome = true → slot.error = none) := by
  cases hdraft : syncDraft? v with
  | none =>
    obtain ⟨e, hone⟩ := syncOne_of_no_draft hdraft
    exact ⟨_, _, congrFun (hone .direct now) t, ht, nofun⟩
  | some draft =>
    obtain ⟨key, record⟩ := draft
    have hwithin : record.toValue.Within Json.maxDepth := by
      obtain ⟨record', hrecord, h⟩ := Option.bind_eq_some_iff.1 hdraft
      obtain ⟨key', -, h⟩ := Option.bind_eq_some_iff.1 h
      cases h
      cases v with
      | object fields =>
        cases hrecord
        exact hv
      | _ => cases hrecord
    obtain ⟨previous, hprevious⟩ := (isReadable_of_holds ht).getRecord key
    have hholds : ((Store.Step.upsert key record now).perform .direct t).1.Holds CanBeRead :=
      ht.upsert hwithin.ordered (canBeRead_stamp key now hwithin)
    refine ⟨_, ⟨some key, none⟩, ?_, hholds, fun _ => rfl⟩
    rw [syncOne_of_draft hdraft]
    exact Prod.ext rfl
      (congrArg (slotOf key) (congrArg Prod.snd (Store.upsert_of_ok hprevious record now)))

/-- So is every one. -/
theorem syncAll_of_canBeRead {t : Table} (ht : t.Holds CanBeRead) (now : UInt64) {vs : List Value}
    (hvs : ∀ v ∈ vs, v.Within Json.maxDepth) :
    ∃ new slots, syncAll .direct now vs t = (new, .ok slots) ∧
      ∀ slot ∈ slots, slot.key.isSome = true → slot.error = none := by
  induction vs generalizing t with
  | nil => exact ⟨t, [], rfl, nofun⟩
  | cons v rest ih =>
    obtain ⟨hv, hrest⟩ := List.forall_mem_cons.1 hvs
    obtain ⟨new, slot, hone, hnew, hslot⟩ := syncOne_of_canBeRead ht now hv
    obtain ⟨last, slots, hall, hslots⟩ := ih hnew hrest
    refine ⟨last, slot :: slots, ?_, List.forall_mem_cons.2 ⟨hslot, hslots⟩⟩
    rw [syncAll, Store.Action.bind_of_ok hone, Store.Action.bind_of_ok hall]
    rfl

/-- What a sync is told has no slot that failed for a value that is no record. -/
theorem slots_of_canBeRead {board : Board} {t : Table} (ht : t.Holds CanBeRead) {r : Request}
    {reply : Reply} (hmethod : r.method = "POST") (hresource : Resource.ofTarget r.target = .sync)
    (hreply : (outcome board .direct t r).2 = .ok reply) :
    ∃ slots, reply = syncReply (clock r) slots ∧
      ∀ slot ∈ slots, slot.key.isSome = true → slot.error = none := by
  obtain ⟨-, hcarried⟩ := carryOut_of_reply hreply
  have hsync : carryOut board .direct t r = sync board .direct r t := by
    unfold carryOut
    rw [hmethod, hresource]
    rfl
  rw [hcarried, hsync] at hreply
  cases hrecords : syncRecords board r with
  | error h =>
    unfold sync at hreply
    rw [hrecords] at hreply
    cases hreply
  | ok records =>
    obtain ⟨body, -, hdecode⟩ := exists_of_bind hrecords
    obtain ⟨new, slots, hall, hslots⟩ := syncAll_of_canBeRead ht (clock r) fun v hv =>
      (within_of_syncBody (ok_of_mapError hdecode) v hv).mono (Nat.sub_le _ _)
    rw [sync_of_slots hrecords hall] at hreply
    cases hreply
    exact ⟨slots, rfl, hslots⟩

end Board

end RecordBoard
