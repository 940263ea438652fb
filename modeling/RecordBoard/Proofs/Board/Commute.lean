import RecordBoard.Proofs.Board.Acknowledged
import RecordBoard.Proofs.Store.Local

/-!
# Requests about different keys

A request that writes says which keys it is about before the table is looked at: the key in its
path, the one that its record names, or those of all items of a sync.  Nothing under another key has
a part in what it comes to, in its answer or in what it leaves, whether it succeeds or not.  So two
requests about different keys can come in either order: each is answered alike, and the table that
they leave is the same.

## Main definitions

* `addressed` — the keys that a request is about.
* `IsWrite` — the six kinds of requests that write.

## Main results

* `localTo_answer` — a request that writes is about the keys that it addresses.
* `independent_writes_commute` — two of them about different keys can come in either order.
-/

namespace RecordBoard.Board

open Json (Value)
open Store (Action Backend Table LocalTo)
open Http (Request Answer)

/-- The keys that a request is about. -/
def addressed (board : Board) (r : Request) : List String :=
  match Resource.ofTarget r.target, Verb.ofMethod r.method with
  | .records, .post => (createDraft board r).toOption.toList.map (·.1)
  | .record segment, .put | .record segment, .delete | .status segment, .put =>
    (keyOf segment).toOption.toList
  | .sync, .post => (((syncRecords board r).toOption.getD []).filterMap syncDraft?).map (·.1)
  | .deliveries, .post => ((deliveryDraft board r).toOption.bind id).toList.map Delivery.Draft.key
  | _, _ => []

/-- A request that writes: one that makes, puts, moves or deletes a record, a sync or a delivery. -/
def IsWrite (r : Request) : Prop :=
  match Resource.ofTarget r.target, Verb.ofMethod r.method with
  | .records, .post | .record _, .put | .record _, .delete | .status _, .put | .sync, .post
  | .deliveries, .post => True
  | _, _ => False

/-! ## One record -/

section OneRecord

variable {b : Backend}

/-- A call on the store is about the same keys within a request. -/
theorem localTo_performing {α : Type} {keys : List String} {action : Action Store.Trouble α}
    (h : LocalTo keys action) : LocalTo keys (performing action) :=
  h.map calling

/-- A draft is written about its key. -/
theorem localTo_writeDraft {α : Type} (now : UInt64) (key : α → String) (record : α → Record)
    (reply : α → Record → Reply) (draft : Except Halt α) :
    LocalTo (draft.toOption.toList.map key) (writeDraft b now key record reply draft) := by
  cases draft with
  | error e => exact .pure (Except.error e)
  | ok d =>
    exact (localTo_performing (Store.localTo_upsert b (key d) (record d) now)).bind fun _ => .pure _

theorem key_of_putDraft {board : Board} {segment : String} {r : Request} {draft : String × Record}
    (h : putDraft board segment r = .ok draft) : keyOf segment = .ok draft.1 := by
  obtain ⟨key, hkey, h⟩ := exists_of_bind h
  obtain ⟨_, -, h⟩ := exists_of_bind h
  obtain ⟨_, -, h⟩ := exists_of_bind h
  cases h
  exact hkey

theorem localTo_put (board : Board) (segment : String) (r : Request) :
    LocalTo (keyOf segment).toOption.toList (putRecord board b segment r) := by
  rw [putRecord_eq]
  refine (localTo_writeDraft (clock r) Prod.fst Prod.snd putReply (putDraft board segment r)).mono
    fun key hkey => ?_
  obtain ⟨draft, hdraft, rfl⟩ := List.mem_map.1 hkey
  rw [key_of_putDraft (ok_of_mem_toList hdraft)]
  exact List.mem_cons_self

theorem localTo_create (board : Board) (r : Request) :
    LocalTo ((createDraft board r).toOption.toList.map (·.1)) (createRecord board b r) := by
  rw [createRecord_eq]
  exact localTo_writeDraft (clock r) Prod.fst Prod.snd createReply (createDraft board r)

/-- The status that a request asks for. -/
def askedStatus (board : Board) (r : Request) : Except Halt Status := do
  let name ← parsed (StatusBody.decode (← bodyOf board r))
  match Status.ofText? name with
  | none => fail (.unknownStatus name)
  | some status => return status

/-- An action that reads a status goes on with the one that is asked for. -/
theorem askedStatus_bind {α : Type} (board : Board) (r : Request) (next : Status → Action Halt α) :
    (do
      let name ← parsed (StatusBody.decode (← bodyOf board r))
      match Status.ofText? name with
      | none => fail (.unknownStatus name)
      | some status => next status) = liftM (askedStatus board r) >>= next := by
  unfold askedStatus
  cases bodyOf board r with
  | error h => rfl
  | ok body =>
    show (liftM (parsed (StatusBody.decode body)) >>= _) =
      ((liftM (parsed (StatusBody.decode body) >>= _ : Except Halt Status) : Action Halt Status) >>=
        next)
    cases parsed (StatusBody.decode body) with
    | error h => rfl
    | ok name =>
      rw [Action.check_bind]
      dsimp only [bind, Except.bind]
      cases Status.ofText? name <;> rfl

/-- The moving of a record, once the one in its place is read. -/
def moving (b : Backend) (now : UInt64) (key : String) (status : Status) :
    Except Store.Trouble (Option Record) → Action Halt Reply
  | .ok (some record) =>
    writeDraft b now (·.2.1) (·.2.2) moveReply
      (.ok (status, key, record.set "status" (.string status.text)))
  | .ok none => Action.reading fun _ => fail (.noRecord key)
  | .error e => Action.reading fun _ => .error (.ofTrouble e)

theorem moveRecord_of_key {segment key : String} (hkey : keyOf segment = .ok key) (board : Board)
    (r : Request) (t : Table) :
    moveRecord board b segment r t =
      match askedStatus board r with
      | .ok status => moving b (clock r) key status (b.getRecord t key) t
      | .error h => (t, .error h) := by
  unfold moveRecord
  rw [hkey, Action.check_bind]
  refine (congrFun (askedStatus_bind board r _) t).trans ?_
  cases askedStatus board r with
  | error h => rfl
  | ok status =>
    show (Action.reading (fun t => calling (b.getRecord t key)) >>= _) t = _
    rw [Action.bind_eq_following]
    show Action.following _ (calling (b.getRecord t key)) t = _
    rcases b.getRecord t key with e | _ | record <;> rfl

/-- A status update looks at the record that it moves, and writes it. -/
theorem localTo_move (board : Board) (segment : String) (r : Request) :
    LocalTo (keyOf segment).toOption.toList (moveRecord board b segment r) := by
  cases hkey : keyOf segment with
  | error e =>
    unfold moveRecord
    rw [hkey]
    exact .pure (Except.error e)
  | ok key =>
    rw [show moveRecord board b segment r = _ from funext (moveRecord_of_key hkey board r)]
    cases askedStatus board r with
    | error h => exact .pure (Except.error h)
    | ok status =>
      -- What is written depends on the table, but only through what is under the key.
      refine LocalTo.reading (f := moving b (clock r) key status) List.mem_cons_self
        (Store.getRecord_congr b) fun t => ?_
      rcases b.getRecord t key with e | _ | record
      · exact .pure (Except.error (Halt.ofTrouble e))
      · exact .pure (fail (.noRecord key))
      · exact localTo_writeDraft (clock r) (·.2.1) (·.2.2) moveReply
          (.ok (status, key, record.set "status" (.string status.text)))

theorem localTo_delete (segment : String) :
    LocalTo (keyOf segment).toOption.toList (deleteRecord b segment) := by
  unfold deleteRecord
  cases hkey : keyOf segment with
  | error e => exact .pure (Except.error e)
  | ok key => exact (localTo_performing (Store.localTo_delete b key)).bind fun _ => .pure _

end OneRecord

theorem localTo_delivery (board : Board) (r : Request) :
    LocalTo (((deliveryDraft board r).toOption.bind id).toList.map Delivery.Draft.key)
      (takeDelivery board .direct r) := by
  rw [takeDelivery_eq]
  cases deliveryDraft board r with
  | error e => exact .pure (Except.error e)
  | ok found =>
    cases found with
    | none => exact .pure (Except.ok (deliveryReply r []))
    | some draft =>
      exact localTo_writeDraft (clock r) Delivery.Draft.key Delivery.Draft.record (recordReply r)
        (.ok draft)

/-! ## A sync -/

/-- An item of a sync is written about the key that it asks for. -/
theorem localTo_syncOne (now : UInt64) (v : Value) :
    LocalTo ((syncDraft? v).toList.map (·.1)) (syncOne .direct now v) := by
  cases hdraft : syncDraft? v with
  | none =>
    obtain ⟨e, hone⟩ := syncOne_of_no_draft hdraft
    rw [hone]
    exact .pure (Except.ok (Slot.mk none (some e)))
  | some draft =>
    obtain ⟨key, record⟩ := draft
    rw [syncOne_of_draft hdraft]
    exact (Store.localTo_upsert .direct key record now).map (slotOf key)

/-- The items of a sync are written about the keys that they ask for. -/
theorem localTo_syncAll (now : UInt64) (items : List Value) :
    LocalTo ((items.filterMap syncDraft?).map (·.1)) (syncAll .direct now items) := by
  induction items with
  | nil => exact .pure (Except.ok [])
  | cons v rest ih =>
    have hkeys : ((v :: rest).filterMap syncDraft?).map (·.1) =
        (syncDraft? v).toList.map (·.1) ++ (rest.filterMap syncDraft?).map (·.1) := by
      rw [List.filterMap_cons]
      cases syncDraft? v <;> rfl
    rw [hkeys, syncAll]
    exact ((localTo_syncOne now v).mono fun _ => List.mem_append_left _).bind fun slot =>
      (ih.mono fun _ => List.mem_append_right _).bind fun slots => .pure _

theorem localTo_sync (board : Board) (r : Request) :
    LocalTo ((((syncRecords board r).toOption.getD []).filterMap syncDraft?).map (·.1))
      (sync board .direct r) := by
  unfold sync
  cases syncRecords board r with
  | error e => exact .pure (Except.error e)
  | ok items =>
    exact ((localTo_syncAll (clock r) items).map (·.mapError Halt.panic)).bind fun slots => .pure _

/-! ## Requests -/

theorem localTo_carryOut (board : Board) {r : Request} (h : IsWrite r) :
    LocalTo (addressed board r) fun t => carryOut board .direct t r := by
  unfold IsWrite at h
  unfold addressed carryOut
  split at h
  next hresource hverb =>
    simp only [hresource, hverb]
    exact localTo_create board r
  next hresource hverb =>
    simp only [hresource, hverb]
    exact localTo_put board _ r
  next hresource hverb =>
    simp only [hresource, hverb]
    exact localTo_delete _
  next hresource hverb =>
    simp only [hresource, hverb]
    exact localTo_move board _ r
  next hresource hverb =>
    simp only [hresource, hverb]
    exact localTo_sync board r
  next hresource hverb =>
    simp only [hresource, hverb]
    exact localTo_delivery board r
  next => exact h.elim

theorem IsWrite.method_ne_options {r : Request} (h : IsWrite r) : r.method ≠ "OPTIONS" := by
  intro hmethod
  unfold IsWrite at h
  rw [hmethod] at h
  split at h
  case h_1 hverb | h_2 hverb | h_3 hverb | h_4 hverb | h_5 hverb | h_6 hverb =>
    exact absurd hverb (by decide)
  case h_7 => exact h

/-- An answer is about the keys that what is carried out is about. -/
theorem localTo_answer_of_carryOut (board : Board) {b : Backend} {keys : List String} {r : Request}
    (hmethod : r.method ≠ "OPTIONS") (h : LocalTo keys fun t => carryOut board b t r) :
    LocalTo keys fun t => board.answer b t r := by
  have houtcome : LocalTo keys fun t => outcome board b t r := by
    unfold outcome
    split
    · exact .pure (fail .unauthorized)
    · exact h
  simp only [answer_of_method board b _ hmethod]
  exact houtcome.map fun result =>
    withOrigins board r (answerOf (Resource.ofTarget r.target) r.method result)

/-- A request that writes is about the keys that it addresses. -/
theorem localTo_answer (board : Board) {r : Request} (h : IsWrite r) :
    LocalTo (addressed board r) fun t => board.answer .direct t r :=
  localTo_answer_of_carryOut board h.method_ne_options (localTo_carryOut board h)

/--
**Requests about different keys commute.**  Two requests that write, each with a clock and random
octets of its own, leave the same table in either order and are answered alike, if no key is
addressed by both.
-/
theorem independent_writes_commute (board : Board) (t : Table) {r r' : Request} (h : IsWrite r)
    (h' : IsWrite r') (hdisjoint : ∀ key ∈ addressed board r, key ∉ addressed board r') :
    ∃ last a a', board.run .direct t [r, r'] = (last, [a, a']) ∧
      board.run .direct t [r', r] = (last, [a', a]) := by
  have hlocal := localTo_answer board h
  have hlocal' := localTo_answer board h'
  have hdisjoint' : ∀ key ∈ addressed board r', key ∉ addressed board r := fun key hmem hkey =>
    hdisjoint key hkey hmem
  refine ⟨_, _, _, rfl, ?_⟩
  rw [run_cons, run_cons, ← hlocal.result_behind hlocal' hdisjoint t,
    hlocal'.result_behind hlocal hdisjoint' t, ← hlocal.commute hlocal' hdisjoint t]
  rfl

theorem toList_keyOf {segment key : String} (h : keyOf segment = .ok key) :
    (keyOf segment).toOption.toList = [key] := by
  rw [h]
  rfl

/-- A request to put or delete a record addresses its key. -/
theorem addressed_of_asks (board : Board) {method key : String} {r : Request}
    (h : Asks method key r) (hmethod : method = "PUT" ∨ method = "DELETE") :
    IsWrite r ∧ addressed board r = [key] := by
  obtain ⟨rfl, segment, hresource, hkey⟩ := h
  have hkeys := toList_keyOf hkey
  unfold IsWrite addressed
  rw [hresource]
  rcases hmethod with hmethod | hmethod <;> rw [hmethod] <;> exact ⟨trivial, hkeys⟩

/-- A record takes the place of another, and a third is deleted. -/
theorem put_and_deletion_commute :
    ∃ (board : Board) (t last : Table) (a a' : Answer),
      Board.ofSettings { ({} : Settings) with apiKey := some "k" } = .ok board ∧
      t = (Table.empty.insert "a" plan.encode).insert "b" visit.encode ∧
      board.run .direct t [putOf visit 5, carrying "k" "DELETE" "/state/b" [] 7] = (last, [a, a']) ∧
      board.run .direct t [carrying "k" "DELETE" "/state/b" [] 7, putOf visit 5] = (last, [a', a]) ∧
      a.status = 200 ∧ a'.status = 200 ∧
      last.get? "a" = some (visit.stamp "a" (some plan) 5).encode ∧ last.get? "b" = none := by
  obtain ⟨board, hboard⟩ := exists_board "k" (by decide)
  have hasks : Asks "DELETE" "b" (carrying "k" "DELETE" "/state/b" [] 7) :=
    ⟨rfl, "b", (by decide : Resource.ofTarget (Http.Target.ofText "/state/b") = _), rfl⟩
  have hfound :
    Backend.direct.getRecord ((Table.empty.insert "a" plan.encode).insert "b" visit.encode) "a" =
      .ok (some plan) :=
    Store.getRecord_of_decode (by simp [Table.get?_insert]) decode_plan
  obtain ⟨hput, hputTable⟩ := answer_of_putOf hboard decode_visit length_visit 5 hfound
  obtain ⟨hdelete, hdeleteTable⟩ := answer_of_delete
    (t := (board.answer .direct ((Table.empty.insert "a" plan.encode).insert "b" visit.encode)
      (putOf visit 5)).1) hasks (hboard.admits_carrying _ _ _ _)
  obtain ⟨hwrite, hkeys⟩ := addressed_of_asks board (asks_putOf visit 5) (.inl rfl)
  obtain ⟨hwrite', hkeys'⟩ := addressed_of_asks board hasks (.inr rfl)
  obtain ⟨last, a, a', hone, hother⟩ := independent_writes_commute board
    ((Table.empty.insert "a" plan.encode).insert "b" visit.encode) hwrite hwrite'
    (by simp [hkeys, hkeys'])
  have hrun := hone
  rw [run_cons, run_cons, run_nil] at hrun
  cases hrun
  refine ⟨board, _, _, _, _, hboard.settings, rfl, hone, hother, hput, hdelete, ?_, ?_⟩
  · rw [hdeleteTable, hputTable, Table.get?_erase, if_neg (by decide), Table.get?_insert,
      if_pos rfl]
    rfl
  · rw [hdeleteTable, Table.get?_erase, if_pos rfl]

end RecordBoard.Board
