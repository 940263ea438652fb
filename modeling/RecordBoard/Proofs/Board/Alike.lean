import RecordBoard.Proofs.Board.Run
import RecordBoard.Proofs.Store.Records

/-!
# Stores that answer alike

Nothing is seen of a store but what its five calls come to.  So two stores that answer each of them
alike, on every table, cannot be told apart: not by a step of a session, not by a request, and
therefore by no sequence of either.

That is what makes it safe to read many keys in one go.  A store that every call reaches gets them
from one view of the table, a store with faults gets them one after the other; if there are no
faults the pairs that are found are the same, whatever keys are asked for, and however often.

## Main definitions

* `Backend.Alike` — two stores answer every call alike.

## Main results

* `getEach_direct` — key after key finds what one view of the table does.
* `Alike.session`, `run_of_alike` — stores that answer alike give the same sessions and the same
  runs.
* `bulk_read_agrees_with_single_reads` — a store without faults is one of them.
-/

namespace RecordBoard

namespace Store

/-! ## Sessions -/

namespace Backend

/-- Two stores answer every call alike. -/
structure Alike (b b' : Backend) : Prop where
  get : ∀ t key, b.get t key = b'.get t key
  put : ∀ key value, b.put key value = b'.put key value
  delete : ∀ key, b.delete key = b'.delete key
  list : ∀ t stem limit cursor, b.list t stem limit cursor = b'.list t stem limit cursor
  getMany : ∀ t keys, b.getMany t keys = b'.getMany t keys

namespace Alike

variable {b b' : Backend} (h : b.Alike b')

include h

theorem getRecord (t : Table) (key : String) : b.getRecord t key = b'.getRecord t key := by
  unfold Backend.getRecord
  rw [h.get]

theorem upsert (key : String) (r : Record) (now : UInt64) :
    b.upsert key r now = b'.upsert key r now := by
  unfold Backend.upsert
  simp only [h.getRecord, h.put]

theorem listRecords (t : Table) (stem : String) (limit : Nat) (cursor : Option String) :
    b.listRecords t stem limit cursor = b'.listRecords t stem limit cursor := by
  unfold Backend.listRecords
  rw [h.list]
  simp only [h.getMany]

theorem scan (t : Table) (limit : Nat) : b.scan t limit = b'.scan t limit := by
  unfold Backend.scan
  rw [h.listRecords]

/-- A step cannot tell the stores apart. -/
theorem perform (t : Table) (step : Step) : step.perform b t = step.perform b' t := by
  cases step with
  | upsert key r now => simp only [Step.perform, h.upsert]
  | get key => simp only [Step.perform, h.getRecord]
  | delete key => simp only [Step.perform, h.delete]
  | list stem limit cursor => simp only [Step.perform, h.listRecords]
  | scan limit => simp only [Step.perform, h.scan]
  | putOctets key value => simp only [Step.perform, h.put]
  | getOctets key => simp only [Step.perform, h.get]
  | listKeys stem limit cursor => simp only [Step.perform, h.list]
  | getMany keys => simp only [Step.perform, h.getMany]
  | reopen => rfl

/-- No session can. -/
theorem session (t : Table) (steps : List Step) : session b t steps = session b' t steps := by
  induction steps generalizing t with
  | nil => rfl
  | cons step rest ih => rw [session_cons, session_cons, h.perform, ih]

end Alike

/-! ## Many keys -/

/-- Key after key finds what one view of the table does: the keys that are there, in the order and
as often as they are asked for. -/
theorem getEach_direct (t : Table) (keys : List String) :
    direct.getEach t keys = .ok (t.getMany keys) := by
  induction keys with
  | nil => rfl
  | cons key rest ih =>
    have hget : direct.get t key = .ok (t.get? key) := rfl
    rw [getEach, hget, ih, Table.getMany, Table.getMany, List.filterMap_cons]
    cases t.get? key <;> rfl

theorem getEach_congr {b b' : Backend} (h : ∀ t key, b.get t key = b'.get t key) (t : Table)
    (keys : List String) : b.getEach t keys = b'.getEach t keys := by
  induction keys with
  | nil => rfl
  | cons key rest ih => rw [getEach, getEach, h, ih]

/-- A store without faults answers like one that every call reaches. -/
theorem alike_subject_nil : direct.Alike (.subject []) where
  get _ _ := rfl
  put _ _ := rfl
  delete _ := rfl
  list _ _ _ _ := rfl
  getMany t keys := by
    have hget : ∀ t key, direct.get t key = (subject []).get t key := fun _ _ => rfl
    show .ok (t.getMany keys) = (subject []).getEach t keys
    rw [← getEach_congr hget, getEach_direct]

end Backend

end Store

/-! ## Runs -/

namespace Board

open Store (Backend Table Step session)
open Http (Request)

section Alike

variable {b b' : Backend} (h : b.Alike b') (board : Board) (t : Table)

include h

theorem syncAll_of_alike (now : UInt64) (items : List Json.Value) :
    syncAll b now items = syncAll b' now items := by
  have hone : ∀ v, syncOne b now v = syncOne b' now v := by
    intro v
    unfold syncOne
    simp only [h.upsert]
  induction items with
  | nil => rfl
  | cons v rest ih => rw [syncAll, syncAll, hone, ih]

/-- A request that is carried out cannot tell the stores apart. -/
theorem carryOut_of_alike (r : Request) : carryOut board b t r = carryOut board b' t r := by
  unfold carryOut ready readRecord listRecords summary putRecord createRecord moveRecord
    deleteRecord
    takeDelivery sync
  simp only [h.list, h.getRecord, h.listRecords, h.scan, h.upsert, h.delete, syncAll_of_alike h]

theorem answer_of_alike (r : Request) : board.answer b t r = board.answer b' t r := by
  unfold answer outcome
  rw [carryOut_of_alike h]

/-- No run can. -/
theorem run_of_alike (rs : List Request) : board.run b t rs = board.run b' t rs := by
  induction rs generalizing t with
  | nil => rfl
  | cons r rest ih => rw [run_cons, run_cons, answer_of_alike h, ih]

end Alike

/--
**Reading in bulk agrees with reading one by one.**  A store that every call reaches gets many keys
from one view of the table; a store with a list of faults, here the empty one, gets them one after
the other. On every table

* both find the same, for every list of keys: the keys that are there with their values, in the
  order and as often as they are asked for;
* every session comes to the same replies and leaves the same table on both;
* every run of requests comes to the same answers and leaves the same table on both.
-/
theorem bulk_read_agrees_with_single_reads (t : Table) :
    (∀ keys : List String,
      Backend.direct.getMany t keys = (Backend.subject []).getMany t keys ∧
      Backend.direct.getMany t keys =
        .ok (keys.filterMap fun key => (t.get? key).map fun value => (key, value))) ∧
    (∀ steps : List Step, session .direct t steps = session (.subject []) t steps) ∧
    (∀ (board : Board) (rs : List Request),
      board.run .direct t rs = board.run (.subject []) t rs) := by
  have halike := Backend.alike_subject_nil
  refine ⟨fun keys => ⟨halike.getMany t keys, rfl⟩, halike.session t, fun board rs => ?_⟩
  exact run_of_alike halike board t rs

end Board

end RecordBoard
