import RecordBoard.Proofs.Board.Listing
import RecordBoard.Proofs.Board.Spared

/-!
# Which records can be read again

Most of what requests bring has been read from a body, and is stored no deeper than it was there.  A
delivery is the exception: its action is put two brackets deep, into the details of a record, while
in the payload it is one bracket deep.  So an action that nests as deep as a payload allows makes a
record that can be written and not be read.

As long as no action does, every value is a record, and nothing that is asked of the board fails for
a value that is none: neither a reading, nor a listing, nor a write, which reads what it replaces,
nor a slot of a sync.  One that does makes every listing fail that comes across it.

## Main definitions

* `issueDelivery` — a delivery about an issue whose action is so many brackets.

## Main results

* `undecodable_of_deep_action` — a draft whose action nests too deep makes no record.
* `answer_of_delivery` — what a delivery writes.
* `stored_records_can_be_read` — what can be read after a run.
* `deep_action_cannot_be_read` — what cannot.
-/

namespace RecordBoard.Board

open Json (Value)
open Store (Backend Table)
open Http (Request Answer)

/-! ## Actions that nest too deep -/

/-- A payload with an action that nests too deep becomes no record that can be read. -/
theorem undecodable_of_deep_action {event : String} {payload a : Value} {now : UInt64}
    {draft : Delivery.Draft} (hpayload : payload.Within Json.maxDepth)
    (hdraft : Delivery.normalize event payload now = .record draft)
    (ha : payload.member? "action" = some a) (hdeep : Json.maxDepth < a.depth + 2) (now' : UInt64) :
    ∃ f, Record.decode (draft.record.stamp draft.key none now').encode = .error f := by
  have hordered : draft.record.toValue.IsOrdered := by
    have hwithin : payload.Within (Json.maxDepth - 1 + 2) := hpayload.mono (Nat.le_succ _)
    refine (Delivery.within_draft (by decide) hwithin (fun a ha => ?_) hdraft).ordered
    exact (hpayload.member? ha).depth_le
  obtain ⟨rule, hrule, subject, identifier, -, rfl⟩ := Delivery.exists_of_normalize hdraft
  have hmetadata : ((rule.draft payload subject identifier now).record.stamp
      (rule.draft payload subject identifier now).key none now').toValue.member? "metadata" =
        some (.object (rule.details payload subject).metadata) := by
    show Record.get? "metadata" (Record.stamp _ _ _ _) = _
    rw [Record.get?_stamp, if_neg (by decide), if_neg (by decide), if_neg (by decide),
      Delivery.get?_metadata]
  have haction : (Value.object (rule.details payload subject).metadata).member? "action" = some a :=
    Delivery.get?_action hrule ha subject
  have hdepth := Value.depth_lt_of_member hmetadata
  have hdepth' := Value.depth_lt_of_member haction
  have hstamped : ((rule.draft payload subject identifier now).record.stamp
      (rule.draft payload subject identifier now).key none now').toValue.IsOrdered :=
    Record.isOrdered_stamp _ now' hordered nofun
  obtain ⟨f, hf, -⟩ := Json.decodeObject_encode_of_depth_lt "a map" hstamped
    (show Json.maxDepth < Value.depth (Record.toValue _) by omega)
  exact ⟨f, by rw [Record.decode, Record.encode, Record.toValue, hf]; rfl⟩

/-- What a delivery writes that becomes a record. -/
theorem answer_of_delivery {board : Board} {t : Table} {r : Request} {draft : Delivery.Draft}
    {previous : Option Record} (hmethod : r.method = "POST")
    (hresource : Resource.ofTarget r.target = .deliveries)
    (hadmits : board.guard.admits r.headers = true)
    (hdraft : deliveryDraft board r = .ok (some draft))
    (hprevious : Backend.direct.getRecord t draft.key = .ok previous) :
    (board.answer .direct t r).2.status = 200 ∧
      (board.answer .direct t r).1 =
        t.insert draft.key (draft.record.stamp draft.key previous (clock r)).encode := by
  have hcarried : carryOut board .direct t r =
      (t.insert draft.key (draft.record.stamp draft.key previous (clock r)).encode,
        .ok (recordReply r draft (draft.record.stamp draft.key previous (clock r)))) := by
    rw [carryOut_of_delivery .direct t hmethod hresource, takeDelivery_of_draft hdraft]
    exact writeDraft_of_readable rfl hprevious
  exact answer_of_carried (by rw [hmethod]; decide) hadmits hcarried

/-- A summary tells the tally of the records that are counted. -/
theorem summary_apply (board : Board) (b : Backend) (t : Table) :
    summary board b t = (t, (calling (b.scan t board.limits.summary)).map fun records =>
      ⟨200, (Tally.ofList records).toValue⟩) :=
  Store.Action.bind_pure_apply _ (fun records => Reply.mk 200 (Tally.ofList records).toValue) t

/-- A summary that comes across a value that is no record fails, whatever else it would count. -/
theorem status_of_undecodable_summary {board : Board} {t : Table} {r : Request}
    (hmethod : r.method = "GET") (hresource : Resource.ofTarget r.target = .summary)
    (hadmits : board.guard.admits r.headers = true) {key : String} {value : Bytes}
    (hkey : key ∈ (t.page "" board.limits.summary none).keys) (hvalue : t.get? key = some value)
    (hdecode : ∀ record, Record.decode value ≠ .ok record) :
    (board.answer .direct t r).2.status = 500 := by
  obtain ⟨f, hf⟩ := Table.listRecords_of_undecodable
    (Table.list_of_key t "" board.limits.summary none) hkey hvalue hdecode
  have hscan : Backend.direct.scan t board.limits.summary =
      .error (.failure (.unreadableRecord f)) := by
    rw [Option.map_none] at hf
    unfold Backend.scan
    rw [hf]
    rfl
  refine status_of_failure (f := .store (.unreadableRecord f)) (by rw [hmethod]; decide) ?_
  rw [outcome_of_admitted board .direct t hadmits]
  unfold carryOut
  rw [hmethod, hresource]
  show (summary board .direct t).2 = _
  rw [summary_apply, hscan]
  rfl

/-! ## Deliveries about an issue -/

/-- So many brackets. -/
def brackets : Nat → Value
  | 0 => .null
  | n + 1 => .array [brackets n]

theorem depth_brackets (n : Nat) : (brackets n).depth = n := by
  induction n with
  | zero => rfl
  | succ n ih =>
    rw [brackets, Value.depth, Value.itemsDepth, ih, Value.itemsDepth]
    omega

theorem isOrdered_brackets (n : Nat) : (brackets n).IsOrdered := by
  induction n with
  | zero => trivial
  | succ n ih => exact ⟨ih, trivial⟩

theorem reread_brackets (n : Nat) : (brackets n).reread = brackets n := by
  induction n with
  | zero => exact Value.reread_null
  | succ n ih => rw [brackets, Value.reread, Value.rereadItems, ih, Value.rereadItems]

theorem length_encode_brackets (n : Nat) : (brackets n).encode.length = 2 * n + 4 := by
  induction n with
  | zero => decide
  | succ n ih =>
    rw [brackets, Json.encode_array, Json.itemsInside, Json.itemsTail, List.length_cons,
      List.length_append, ih, List.length_singleton]
    omega

/-- The number of an issue. -/
def numbered : Value := .object [("number", .number (.integer 1 (by decide)))]

/-- A payload about the issue, with so many brackets for an action. -/
def issuePayload (n : Nat) : Value := .object [("action", brackets n), ("issue", numbered)]

/-- The delivery of the payload, with the secret `k`. -/
def issueDelivery (n : Nat) : Request where
  method := "POST"
  target := Http.Target.ofText "/webhook/github"
  headers := [("x-api-key", Utf8.encode "k"), (eventHeader, Utf8.encode "issues")]
  body := (issuePayload n).encode
  now := 0
  random := none

theorem within_issuePayload {n room : Nat} (h : n ≤ room) (hroom : 0 < room) :
    (issuePayload n).Within (room + 1) := by
  refine Value.within_object_iff.2 ⟨List.pairwise_pair.2 (show "action" < "issue" by decide), ?_⟩
  simp only [List.mem_cons, List.not_mem_nil, or_false, forall_eq_or_imp, forall_eq]
  refine ⟨⟨isOrdered_brackets n, by rw [depth_brackets]; exact h⟩, ?_⟩
  exact ⟨⟨by decide, trivial, trivial⟩, hroom⟩

/-- The payload is read as it is. -/
theorem decode_issuePayload {n : Nat} (h : n < Json.maxDepth) :
    Json.decode (issuePayload n).encode = .ok (issuePayload n) := by
  have hwithin : (issuePayload n).Within Json.maxDepth :=
    within_issuePayload (Nat.le_sub_one_of_lt h) (by decide)
  have hreread : (issuePayload n).reread = issuePayload n := by
    rw [issuePayload, numbered, Value.reread, Value.rereadFields, Value.rereadFields,
      Value.rereadFields, reread_brackets, Value.reread, Value.rereadFields, Value.rereadFields,
      Value.reread, Json.reread_integer]
  rw [Json.decode_encode hwithin, hreread]

theorem length_encode_issuePayload (n : Nat) : (issuePayload n).encode.length = 2 * n + 36 := by
  have hname : (Json.stringTail "action").length = 7 := by decide
  have hrest : (Json.fieldsTail [("issue", numbered)]).length = 22 := by decide
  rw [issuePayload, Json.encode_object, Json.fieldsInside, List.length_cons, List.length_cons,
    List.length_append, List.length_cons, List.length_append, length_encode_brackets, hname, hrest]
  omega

/-- What the delivery becomes. -/
def issueDraft (n : Nat) : Delivery.Draft :=
  Delivery.issueRule.draft (issuePayload n) numbered "1" (clockSeconds 0)

/-- It is not too long, -/
theorem length_issueDelivery_le {board : Board} (hboard : board.IsDefault "k") {n : Nat}
    (h : n < Json.maxDepth) :
    (issueDelivery n).body.length ≤ board.limits.body := by
  have hbound : n < 127 := h
  have hmost : board.limits.body = 33554432 := by rw [hboard.limits]
  dsimp only [issueDelivery]
  rw [length_encode_issuePayload]
  omega

/-- it names its event, -/
theorem event_issueDelivery (n : Nat) :
    (issueDelivery n).headers.text? eventHeader = some "issues" :=
  (by decide : Http.Headers.text? eventHeader
    [("x-api-key", Utf8.encode "k"), (eventHeader, Utf8.encode "issues")] = some "issues")

/-- it carries the secret, -/
theorem admits_issueDelivery {board : Board} (hboard : board.IsDefault "k") (n : Nat) :
    board.guard.admits (issueDelivery n).headers = true :=
  hboard.admits _ (by decide : Http.Headers.text? "x-api-key"
    [("x-api-key", Utf8.encode "k"), (eventHeader, Utf8.encode "issues")] = some "k")

/-- its body is the payload, -/
theorem decode_issueDelivery {n : Nat} (h : n < Json.maxDepth) :
    Json.decode (issueDelivery n).body = .ok (issuePayload n) := by
  dsimp only [issueDelivery]
  rw [decode_issuePayload h]

theorem resource_issueDelivery (n : Nat) :
    Resource.ofTarget (issueDelivery n).target = .deliveries :=
  (by decide : Resource.ofTarget (Http.Target.ofText "/webhook/github") = .deliveries)

/-- and so it is carried out. -/
theorem answer_of_issueDelivery {board : Board} (hboard : board.IsDefault "k") {n : Nat}
    (h : n < Json.maxDepth) {t : Table} (habsent : t.get? "task:issue-1" = none) :
    (board.answer .direct t (issueDelivery n)).2.status = 200 ∧
      (board.answer .direct t (issueDelivery n)).1 = t.insert "task:issue-1"
        ((issueDraft n).record.stamp "task:issue-1" none (clockSeconds 0)).encode := by
  have hdraft : deliveryDraft board (issueDelivery n) = .ok (some (issueDraft n)) := by
    rw [deliveryDraft_of_rule (length_issueDelivery_le hboard h) (event_issueDelivery n) rfl,
      decode_issueDelivery h]
    rfl
  exact answer_of_delivery rfl (resource_issueDelivery n) (admits_issueDelivery hboard n) hdraft
    (Store.getRecord_of_absent habsent)

/-! ## What can be read -/

/--
**What is stored can be read again.** If no delivery brings an action that nests more than two
brackets less deep than a reader follows, then whatever else is asked of a board that begins with
nothing, every value that it leaves is a record.  Nothing that is asked next is answered with the
failure to read one, and in a sync every record is written that says where it goes.
-/
theorem stored_records_can_be_read (board : Board) {rs : List Request}
    (haction : ∀ r ∈ rs, ActionWithin (Json.maxDepth - 2) r) :
    (∀ key value, (board.run .direct .empty rs).1.get? key = some value →
      ∃ record, Record.decode value = .ok record) ∧
    ∀ r : Request,
      (∀ f : Store.Failure,
        (outcome board .direct (board.run .direct .empty rs).1 r).2 = .error (.failure (.store f)) →
          f.activity ≠ .deserializing) ∧
      (r.method = "POST" → Resource.ofTarget r.target = .sync → ∀ reply,
        (outcome board .direct (board.run .direct .empty rs).1 r).2 = .ok reply →
          ∃ slots, reply = syncReply (clock r) slots ∧
            ∀ slot ∈ slots, slot.key.isSome = true → slot.error = none) := by
  have hholds := holds_canBeRead board Table.holds_empty haction
  have hreadable := isReadable_of_holds hholds
  refine ⟨fun key value => hreadable key value List.nil_prefix, fun r => ⟨?_, ?_⟩⟩
  · exact fun f hf => spares_outcome hreadable board r _ hf f rfl
  · intro hmethod hresource reply hreply
    exact slots_of_canBeRead hholds hmethod hresource hreply

theorem actionWithin_issueDelivery {n : Nat} (h : n < Json.maxDepth) :
    ActionWithin n (issueDelivery n) := by
  intro _ payload action hpayload haction
  rw [decode_issueDelivery h] at hpayload
  cases hpayload
  cases haction
  exact Nat.le_of_eq (depth_brackets n)

/-- As deep an action as can be read again. -/
theorem deepest_action_can_be_read :
    ActionWithin (Json.maxDepth - 2) (issueDelivery 125) ∧
      ∃ board : Board, Board.ofSettings { ({} : Settings) with apiKey := some "k" } = .ok board ∧
        (board.answer .direct .empty (issueDelivery 125)).2.status = 200 ∧
        ∃ value record,
          (board.run .direct .empty [issueDelivery 125]).1.get? "task:issue-1" = some value ∧
          Record.decode value = .ok record := by
  have hn : 125 < Json.maxDepth := by decide
  have haction : ActionWithin (Json.maxDepth - 2) (issueDelivery 125) :=
    actionWithin_issueDelivery hn
  obtain ⟨board, hboard⟩ := exists_board "k" (by decide)
  obtain ⟨hstatus, htable⟩ := answer_of_issueDelivery (t := .empty) hboard hn rfl
  refine ⟨haction, board, hboard.settings, hstatus, ?_⟩
  have hreads : ∀ value, (board.run .direct .empty [issueDelivery 125]).1.get? "task:issue-1" =
    some value →
      ∃ record, Record.decode value = .ok record :=
    (stored_records_can_be_read board (List.forall_mem_singleton.2 haction)).1 "task:issue-1"
  have hvalue : (board.run .direct .empty [issueDelivery 125]).1.get? "task:issue-1" =
      some ((issueDraft 125).record.stamp "task:issue-1" none (clockSeconds 0)).encode := by
    rw [run_cons, run_nil, htable, Table.get?_insert, if_pos rfl]
  obtain ⟨record, hrecord⟩ := hreads _ hvalue
  exact ⟨_, record, hvalue, hrecord⟩

/-- An action one bracket deeper makes no record that can be read. -/
theorem undecodable_issueDraft (record : Record) : Record.decode
    ((issueDraft 126).record.stamp "task:issue-1" none (clockSeconds 0)).encode ≠ .ok record := by
  have hdraft : Delivery.normalize "issues" (issuePayload 126) (clockSeconds 0) =
      .record (issueDraft 126) := rfl
  have hdeep : Json.maxDepth < (brackets 126).depth + 2 := by
    rw [depth_brackets]
    decide
  obtain ⟨f, hdecode⟩ := undecodable_of_deep_action
    (within_issuePayload (Nat.le_refl 126) (by decide)) hdraft rfl hdeep (clockSeconds 0)
  intro hrecord
  cases hrecord.symm.trans hdecode

/-- Where the only value is no record nothing can be listed and nothing counted. -/
theorem status_of_only_undecodable {board : Board} (hboard : board.IsDefault "k") (key : String)
    {value : Bytes} (hdecode : ∀ record, Record.decode value ≠ .ok record) (now : Int) :
    (board.answer .direct (Table.empty.insert key value)
      (carrying "k" "GET" "/state" [] now)).2.status = 500 ∧
    (board.answer .direct (Table.empty.insert key value)
      (carrying "k" "GET" "/stats" [] now)).2.status = 500 := by
  have hvalue : (Table.empty.insert key value).get? key = some value := by
    rw [Table.get?_insert, if_pos rfl]
  constructor
  · have hfields : (Http.Target.ofText "/state").fields = [] := by decide
    have hasks : AsksPage "" none (carrying "k" "GET" "/state" [] now) := asksPage_of_no_fields rfl
      (by decide : Resource.ofTarget (Http.Target.ofText "/state") = _) hfields
    obtain ⟨size, hsize, hpage⟩ := exists_pageSize hboard.settings
      (queryField? "limit" (carrying "k" "GET" "/state" [] now).target.fields)
    have hfront : (none : Option String) ≠ some "" := nofun
    have hadmits := hboard.admits_carrying "GET" "/state" [] now
    generalize carrying "k" "GET" "/state" [] now = r at *
    exact status_of_undecodable hpage hfront hasks hadmits
      (Table.mem_page_of_single key value hsize) hvalue hdecode
  · have hsize : 0 < board.limits.summary := by
      rw [hboard.limits]
      decide
    exact status_of_undecodable_summary rfl
      (by decide : Resource.ofTarget (Http.Target.ofText "/stats") = _)
      (hboard.admits_carrying "GET" "/stats" [] now) (Table.mem_page_of_single key value hsize)
      hvalue hdecode

/-- Such an action is taken, and then nothing can be listed and nothing counted. -/
theorem deep_action_cannot_be_read :
    ∃ board : Board, Board.ofSettings { ({} : Settings) with apiKey := some "k" } = .ok board ∧
      (board.answer .direct .empty (issueDelivery 126)).2.status = 200 ∧
      (∃ value, (board.run .direct .empty [issueDelivery 126]).1.get? "task:issue-1" = some value ∧
        ∀ record, Record.decode value ≠ .ok record) ∧
      (board.answer .direct (board.run .direct .empty [issueDelivery 126]).1
        (carrying "k" "GET" "/state" [] 1)).2.status = 500 ∧
      (board.answer .direct (board.run .direct .empty [issueDelivery 126]).1
        (carrying "k" "GET" "/stats" [] 1)).2.status = 500 := by
  obtain ⟨board, hboard⟩ := exists_board "k" (by decide)
  obtain ⟨hstatus, htable⟩ := answer_of_issueDelivery (t := .empty) hboard
    (by decide : 126 < Json.maxDepth) rfl
  refine ⟨board, hboard.settings, hstatus, ?_⟩
  rw [run_cons, run_nil, htable]
  exact ⟨⟨_, by rw [Table.get?_insert, if_pos rfl], undecodable_issueDraft⟩,
    status_of_only_undecodable hboard _ undecodable_issueDraft 1⟩

end RecordBoard.Board
