import RecordBoard.Proofs.Board.Answer
import RecordBoard.Proofs.Store.Faults

/-!
# Requests that leave the table alone

A request that is not carried out leaves the table as it found it, however the store treats its
calls. An action could write and then come to an error, so this is a matter of order.  In a request
that writes one record everything that can end it, the stored record that cannot be read included,
stands in front of the one call that writes, and that call writes nothing if it fails.  Behind it
only a reply is made.  One lemma for each such request walks through it.

A sync is different, since the records in front of a breakdown stay written.  But a store that does
not break down lets every sync come to a reply.

A reply always has status 200 or 201, so an answer with another status is one to a request that came
to none.  Requests that only read leave the table alone whatever they come to.

## Main results

* `isAtomic_upsert` — a write that fails leaves the table alone.
* `isAtomic_putRecord`, `isAtomic_moveRecord` and so on — so does a request that writes one record.
* `exists_slots` — a sync on a store that does not break down comes to a reply.
* `status_of_carryOut` — a reply has status 200 or 201.
* `failed_request_leaves_table` — all of them together, for all requests.
-/

namespace RecordBoard

open Json (Value)

namespace Board

open Store (Action Backend Table)
open Store.Action
open Http (Request Answer)

/-! ## Writes that fail -/

theorem isAtomic_writing {α : Type} (b : Backend) (call : Store.Call) (key : String) (swallowed : α)
    (write : Table → Table × α) : IsAtomic (b.writing call key swallowed write) := by
  intro t e he
  unfold Backend.writing at he ⊢
  cases heffect : b.effectOn? call key with
  | some effect => rfl
  | none =>
    rw [heffect] at he
    cases he

/-- A write that fails leaves the table alone: the record in its place is read before it is
replaced. -/
theorem isAtomic_upsert (b : Backend) (key : String) (record : Record) (now : UInt64) :
    IsAtomic (b.upsert key record now) :=
  .behind (isReading_reading _) fun _ => (isAtomic_writing b .put key () _).andReturn _

theorem isAtomic_performing {α : Type} {action : Action Store.Trouble α} (h : IsAtomic action) :
    IsAtomic (performing action) :=
  h.told nofun

/-! ## Requests that write one record -/

theorem isAtomic_putRecord (board : Board) (b : Backend) (segment : String) (r : Request) :
    IsAtomic (putRecord board b segment r) :=
  .behind (isReading_check _) fun key => .behind (isReading_check _) fun _ =>
    .behind (isReading_check _) fun record =>
      (isAtomic_performing (isAtomic_upsert b key record (clock r))).andReturn _

theorem isAtomic_createRecord (board : Board) (b : Backend) (r : Request) :
    IsAtomic (createRecord board b r) :=
  .behind (isReading_check _) fun _ => .behind (isReading_check _) fun _ =>
    .behind (isReading_check _) fun draft =>
      (isAtomic_performing (isAtomic_upsert b draft.1 draft.2 (clock r))).andReturn _

theorem isAtomic_moveRecord (board : Board) (b : Backend) (segment : String) (r : Request) :
    IsAtomic (moveRecord board b segment r) := by
  refine .behind (isReading_check _) fun key => .behind (isReading_check _) fun _ =>
    .behind (isReading_check _) fun name => ?_
  cases Status.ofText? name with
  | none => exact (isReading_check _).isAtomic
  | some status =>
    refine .behind (isReading_reading _) fun found => ?_
    cases found with
    | none => exact (isReading_check _).isAtomic
    | some record => exact (isAtomic_performing (isAtomic_upsert b key _ (clock r))).andReturn _

theorem isAtomic_deleteRecord (b : Backend) (segment : String) :
    IsAtomic (deleteRecord b segment) :=
  .behind (isReading_check _) fun key =>
    (isAtomic_performing (isAtomic_writing b .delete key false _)).andReturn _

theorem isAtomic_takeDelivery (board : Board) (b : Backend) (r : Request) :
    IsAtomic (takeDelivery board b r) := by
  refine .behind (isReading_check _) fun body => ?_
  dsimp only
  split
  · exact (isReading_pure _).isAtomic
  · refine .behind (isReading_check _) fun payload => ?_
    split
    · exact (isAtomic_performing (isAtomic_upsert b _ _ (clock r))).andReturn _
    · exact (isReading_pure _).isAtomic

/-! ## Requests that only read -/

theorem isReading_ready (b : Backend) : IsReading (ready b) :=
  .bind (isReading_reading _) fun _ => isReading_pure _

theorem isReading_listRecords (board : Board) (b : Backend) (target : Http.Target) :
    IsReading (listRecords board b target) := by
  unfold listRecords
  dsimp only
  split
  · exact isReading_check _
  · exact .bind (isReading_check _) fun _ => .bind (isReading_reading _) fun _ => isReading_pure _

theorem isReading_summary (board : Board) (b : Backend) : IsReading (summary board b) :=
  .bind (isReading_reading _) fun _ => isReading_pure _

/-! ## Syncs -/

/-- A failure to write a record fills its slot, so only a breakdown ends a sync. -/
theorem exists_slot {b : Backend} (hb : b.NeverPanics) (now : UInt64) (t : Table) (v : Value) :
    ∃ slot, (syncOne b now v t).2 = .ok slot := by
  unfold syncOne
  cases Record.ofValue? v with
  | none => exact ⟨_, rfl⟩
  | some record =>
    dsimp only
    cases record.derivedKey? defaultType with
    | none => exact ⟨_, rfl⟩
    | some key =>
      show ∃ slot, slotOf key (b.upsert key record now t).2 = .ok slot
      cases hwrite : (b.upsert key record now t).2 with
      | ok stored => exact ⟨_, rfl⟩
      | error e =>
        obtain ⟨f, rfl⟩ :=
          Backend.isFailure_of_isFrom hb (b.ends_upsert t none key record now e hwrite)
        exact ⟨_, rfl⟩

/-- A store that does not break down comes to the end of every sync. -/
theorem exists_slots {b : Backend} (hb : b.NeverPanics) (now : UInt64) (t : Table)
    (vs : List Value) :
    ∃ slots, (syncAll b now vs t).2 = .ok slots := by
  induction vs generalizing t with
  | nil => exact ⟨[], rfl⟩
  | cons v rest ih =>
    obtain ⟨slot, hslot⟩ := exists_slot hb now t v
    obtain ⟨slots, hslots⟩ := ih (syncOne b now v t).1
    refine ⟨slot :: slots, ?_⟩
    rw [syncAll, snd_bind, hslot]
    show ((syncAll b now rest >>= fun slots => pure (slot :: slots)) (syncOne b now v t).1).2 = _
    rw [snd_bind, hslots]
    rfl

/-- A sync that comes to the end of its records is told what became of them. -/
theorem sync_of_slots {board : Board} {b : Backend} {t new : Table} {r : Request}
    {records : List Value} {slots : List Slot} (hrecords : syncRecords board r = .ok records)
    (hslots : syncAll b (clock r) records t = (new, .ok slots)) :
    sync board b r t = (new, .ok (syncReply (clock r) slots)) := by
  unfold sync
  rw [hrecords]
  show ((syncAll b (clock r) records).told _ >>= _) t = _
  exact bind_of_ok (by rw [told, hslots]; rfl)

/-- A sync that comes to no reply was refused before it began, if the store does not break down. -/
theorem sync_of_halt {board : Board} {b : Backend} {t : Table} {r : Request} {h : Halt}
    (hb : b.NeverPanics) (hhalt : (sync board b r t).2 = .error h) : (sync board b r t).1 = t := by
  cases hrecords : syncRecords board r with
  | error e =>
    unfold sync
    rw [hrecords]
    rfl
  | ok records =>
    obtain ⟨slots, hslots⟩ := exists_slots hb (clock r) t records
    rw [sync_of_slots hrecords (Prod.ext rfl hslots)] at hhalt
    cases hhalt

/-! ## Replies -/

/-- A reply to a request that was carried out. -/
def IsSuccess (reply : Reply) : Prop := reply.status ∈ [200, 201]

theorem isSuccess_ok (fields : List (String × Value)) : IsSuccess (ok fields) :=
  List.mem_cons_self

theorem isSuccess_readRecord (b : Backend) (segment : String) :
    Gives IsSuccess (readRecord b segment) := by
  refine .after fun key => .after fun found => ?_
  cases found with
  | none => exact gives_error _
  | some record => exact gives_pure List.mem_cons_self

theorem isSuccess_listRecords (board : Board) (b : Backend) (target : Http.Target) :
    Gives IsSuccess (listRecords board b target) := by
  unfold listRecords
  dsimp only
  split
  · exact gives_error _
  · exact .after fun size => .after fun found => gives_pure (isSuccess_ok _)

theorem isSuccess_summary (board : Board) (b : Backend) : Gives IsSuccess (summary board b) :=
  .after fun _ => gives_pure List.mem_cons_self

theorem isSuccess_putRecord (board : Board) (b : Backend) (segment : String) (r : Request) :
    Gives IsSuccess (putRecord board b segment r) :=
  .after fun _ => .after fun _ => .after fun _ => .after fun _ => gives_pure (isSuccess_ok _)

theorem isSuccess_createRecord (board : Board) (b : Backend) (r : Request) :
    Gives IsSuccess (createRecord board b r) :=
  .after fun _ => .after fun _ => .after fun _ => .after fun _ =>
    gives_pure (List.mem_cons_of_mem _ List.mem_cons_self)

theorem isSuccess_moveRecord (board : Board) (b : Backend) (segment : String) (r : Request) :
    Gives IsSuccess (moveRecord board b segment r) := by
  refine .after fun key => .after fun body => .after fun name => ?_
  split
  · exact gives_error _
  · refine .after fun found => ?_
    split
    · exact gives_error _
    · exact .after fun _ => gives_pure (isSuccess_ok _)

theorem isSuccess_deleteRecord (b : Backend) (segment : String) :
    Gives IsSuccess (deleteRecord b segment) :=
  .after fun _ => .after fun _ => gives_pure (isSuccess_ok _)

theorem isSuccess_takeDelivery (board : Board) (b : Backend) (r : Request) :
    Gives IsSuccess (takeDelivery board b r) := by
  refine .after fun body => ?_
  dsimp only
  split
  · exact gives_pure (isSuccess_ok _)
  · refine .after fun payload => ?_
    split
    · exact .after fun _ => gives_pure (isSuccess_ok _)
    · exact gives_pure (isSuccess_ok _)

theorem isSuccess_sync (board : Board) (b : Backend) (r : Request) :
    Gives IsSuccess (sync board b r) :=
  .after fun _ => .after fun _ => gives_pure (isSuccess_ok _)

/-- A reply has status 200 or 201. -/
theorem status_of_carryOut {board : Board} {b : Backend} {t : Table} {r : Request} {reply : Reply}
    (h : (carryOut board b t r).2 = .ok reply) : IsSuccess reply := by
  unfold carryOut at h
  split at h
  · cases h
    exact isSuccess_ok _
  · exact Gives.after (fun _ => gives_pure (isSuccess_ok _)) t reply h
  · exact isSuccess_listRecords board b r.target t reply h
  · exact isSuccess_createRecord board b r t reply h
  · exact isSuccess_readRecord b _ t reply h
  · exact isSuccess_putRecord board b _ r t reply h
  · exact isSuccess_deleteRecord b _ t reply h
  · exact isSuccess_moveRecord board b _ r t reply h
  · exact isSuccess_sync board b r t reply h
  · exact isSuccess_takeDelivery board b r t reply h
  · exact isSuccess_summary board b t reply h
  · cases h

/-! ## Tables -/

/-- Nothing that comes to no reply changes the table, a sync aside. -/
theorem carryOut_of_halt {board : Board} {b : Backend} {t : Table} {r : Request} {h : Halt}
    (hhalt : (carryOut board b t r).2 = .error h)
    (hsync : ¬ (Resource.ofTarget r.target = .sync ∧ Verb.ofMethod r.method = .post)) :
    (carryOut board b t r).1 = t := by
  unfold carryOut at hhalt ⊢
  split at hhalt
  · rfl
  · exact isReading_ready b t
  · exact isReading_listRecords board b r.target t
  · exact isAtomic_createRecord board b r t h hhalt
  · exact isReading_readRecord b _ t
  · exact isAtomic_putRecord board b _ r t h hhalt
  · exact isAtomic_deleteRecord b _ t h hhalt
  · exact isAtomic_moveRecord board b _ r t h hhalt
  next hresource hverb => exact absurd ⟨hresource, hverb⟩ hsync
  · exact isAtomic_takeDelivery board b r t h hhalt
  · exact isReading_summary board b t
  · rfl

/-- What is asked for to be read leaves the table alone. -/
theorem carryOut_of_read (board : Board) (b : Backend) (t : Table) {r : Request}
    (h : Verb.ofMethod r.method = .get) : (carryOut board b t r).1 = t := by
  unfold carryOut
  rw [h]
  cases Resource.ofTarget r.target with
  | ready => exact isReading_ready b t
  | records => exact isReading_listRecords board b r.target t
  | record segment => exact isReading_readRecord b segment t
  | summary => exact isReading_summary board b t
  | health | status | sync | deliveries | nothing => rfl

/-- A verb other than to get and the unknown ones stands for one method. -/
theorem method_of_verb {method : String} {verb : Verb} (h : Verb.ofMethod method = verb) :
    (verb = .put → method = "PUT") ∧ (verb = .post → method = "POST") ∧
      (verb = .delete → method = "DELETE") := by
  unfold Verb.ofMethod at h
  subst h
  split
  · exact ⟨nofun, nofun, nofun⟩
  · split
    · exact ⟨fun _ => ‹_›, nofun, nofun⟩
    · split
      · exact ⟨nofun, fun _ => ‹_›, nofun⟩
      · split
        · exact ⟨nofun, nofun, fun _ => ‹_›⟩
        · exact ⟨nofun, nofun, nofun⟩

/-- A request that comes to no reply leaves the table alone. -/
theorem outcome_of_halt {board : Board} {b : Backend} {t : Table} {r : Request} {h : Halt}
    (hb : r.method = "POST" → Resource.ofTarget r.target = .sync → b.NeverPanics)
    (hhalt : (outcome board b t r).2 = .error h) : (outcome board b t r).1 = t := by
  unfold outcome at hhalt ⊢
  split at hhalt
  next hrefused => rw [if_pos hrefused]
  next hopen =>
    rw [if_neg hopen]
    by_cases hsync : Resource.ofTarget r.target = .sync ∧ Verb.ofMethod r.method = .post
    · have hcarried : carryOut board b t r = sync board b r t := by
        unfold carryOut
        rw [hsync.1, hsync.2]
      rw [hcarried] at hhalt ⊢
      exact sync_of_halt (hb ((method_of_verb hsync.2).2.1 rfl) hsync.1) hhalt
    · exact carryOut_of_halt hhalt hsync

/--
**A failed request leaves no trace.**  Whatever the store does to its calls, an answer with a status
other than 200 and 201 tells that the table is as it was; for a sync that is so if no call breaks
down.  A request that asks for something to be read, or about other origins, leaves the table as it
was in any case.
-/
theorem failed_request_leaves_table (board : Board) (b : Backend) (t : Table) (r : Request) :
    ((board.answer b t r).2.status ∉ [200, 201] →
      (r.method = "POST" → Resource.ofTarget r.target = .sync → b.NeverPanics) →
        (board.answer b t r).1 = t) ∧
    (r.method ∈ ["GET", "HEAD", "OPTIONS"] → (board.answer b t r).1 = t) := by
  by_cases hoptions : r.method = "OPTIONS"
  · have hsame : (board.answer b t r).1 = t := by
      unfold answer
      rw [if_pos hoptions]
    exact ⟨fun _ _ => hsame, fun _ => hsame⟩
  rw [answer_of_method board b t hoptions]
  constructor
  · intro hstatus hb
    cases hresult : (outcome board b t r).2 with
    | error h => exact outcome_of_halt hb hresult
    | ok reply =>
      obtain ⟨-, hcarried⟩ := carryOut_of_reply hresult
      have hsuccess : IsSuccess reply := status_of_carryOut (by rw [← hcarried, hresult])
      refine absurd ?_ hstatus
      dsimp only
      rw [status_withOrigins, hresult, answerOf, status_finished]
      exact hsuccess
  · intro hmethod
    have hverb : Verb.ofMethod r.method = .get := by
      simp only [List.mem_cons, List.not_mem_nil, or_false, hoptions] at hmethod
      rcases hmethod with heq | heq <;> rw [heq] <;> decide
    unfold outcome
    split
    · rfl
    · exact carryOut_of_read board b t hverb

/-- A deletion that the store fails to do, of a record that is there. -/
theorem failed_delete_leaves_table :
    ∃ (board : Board) (b : Backend) (t : Table) (r : Request),
      Board.ofSettings { ({} : Settings) with apiKey := some "k" } = .ok board ∧
      b = .subject [⟨.delete, none, .fails ⟨.writing, "disk full"⟩⟩] ∧
      t = Table.empty.insert "a" Record.empty.encode ∧
      r = carrying "k" "DELETE" "/state/a" [] 0 ∧
      (board.answer b t r).2.status = 500 ∧ (board.answer b t r).1 = t := by
  obtain ⟨board, hboard⟩ := exists_board "k" (by decide)
  have hadmitted := hboard.admits_carrying "DELETE" "/state/a" [] 0
  refine ⟨board, _, _, _, hboard.settings, rfl, rfl, rfl, ?_⟩
  have hfailed : (outcome board (.subject [⟨.delete, none, .fails ⟨.writing, "disk full"⟩⟩])
      (Table.empty.insert "a" Record.empty.encode) (carrying "k" "DELETE" "/state/a" [] 0)).2 =
        .error (.failure (.store ⟨.writing, "disk full"⟩)) := by
    have hresource : Resource.ofTarget (carrying "k" "DELETE" "/state/a" [] 0).target =
        .record "a" := by
      decide
    have hverb : Verb.ofMethod (carrying "k" "DELETE" "/state/a" [] 0).method = .delete := by decide
    rw [outcome_of_admitted board _ _ hadmitted, carryOut, hresource, hverb]
    rfl
  have hstatus := status_of_failure (by decide) hfailed
  refine ⟨hstatus, (failed_request_leaves_table board _ _ _).1 ?_ ?_⟩
  · rw [hstatus]
    decide
  · intro hpost
    exact absurd hpost (by decide)

end Board

end RecordBoard
