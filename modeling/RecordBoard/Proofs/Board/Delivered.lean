import RecordBoard.Proofs.Board.Acknowledged
import RecordBoard.Proofs.Board.Readable
import RecordBoard.Proofs.Delivery.Mapping
import RecordBoard.Proofs.Store.Upsert

/-!
# What a delivery changes

A delivery is looked at from the outside in: the event that its header announces, then its body,
then what the payload becomes, and last the place where the record goes.  Wherever that ends short
of a record the table is left alone, and the answer says nothing of a record.  An event that does
not count is no failure, whatever the body is, and nor is a payload that lacks something; a body
that is no value is.

A record that a delivery becomes takes the place of the one before and keeps nothing of it but what
the stamps carry over: the moment of its first write, and a bound for that of its last.

## Main definitions

* `Announces` — a delivery announces an event of a kind.
* `TellsNoRecord`, `TellsRecord` — what the answer to a delivery says.
* `Replaces` — a record is a draft but for the two moments.
* `Settles` — an answer and a table are what a delivery of this outcome leads to.

## Main results

* `settles_answer` — a delivery whose event counts and whose body is a value.
* `delivery_writes_its_record` — all that a delivery can come to.
-/

namespace RecordBoard.Board

open Json (Value)
open Store (Backend Table)
open Http (Request Answer)
open Delivery (Kind)

/-- The header of a delivery can be read and names the event of the kind. -/
def Announces (kind : Kind) (r : Request) : Prop := r.headers.text? eventHeader = some kind.event

/-- An answer that can be read and tells neither a key nor a status. -/
def TellsNoRecord (a : Answer) : Prop :=
  ∃ told, a.told? = some told ∧ told.member? "key" = none ∧ told.member? "status" = none

/-- An answer that tells the key and the status of a draft. -/
structure TellsRecord (draft : Delivery.Draft) (a : Answer) : Prop where
  /-- It tells the key. -/
  key : Tells draft.key a
  /-- It tells the status. -/
  status : a.told?.bind (Value.member? "status") = some (.string draft.status.text)

/-- The record is the draft but for the moments of its first and its last write. -/
structure Replaces (draft : Delivery.Draft) (stored : Record) : Prop where
  /-- It has the status of the draft. -/
  status : stored.get? "status" = some (.string draft.status.text)
  /-- Its other fields are those of the draft, and it has no more. -/
  others : ∀ field, field ≠ "created_at" → field ≠ "updated_at" →
    stored.get? field = draft.record.get? field

/-- The table and the answer are what a delivery leads to that becomes this. -/
def Settles (t new : Table) (a : Answer) : Delivery.Outcome → Prop
  | .record draft =>
    (t.IsUnreadableAt draft.key → a.status = 500 ∧ new = t) ∧
    (¬ t.IsUnreadableAt draft.key → a.status = 200 ∧ TellsRecord draft a ∧
      ∃ stored, t.WritesOnly draft.key stored new ∧ Replaces draft stored)
  | _ => a.status = 200 ∧ new = t ∧ TellsNoRecord a

/-- A stamp leaves a draft that names its key as it is, but for the moments. -/
theorem replaces_of_isStampOf {draft : Delivery.Draft} {previous : Option Record} {now : UInt64}
    {stored : Record} (hkey : draft.record.get? "key" = some (.string draft.key))
    (hstatus : draft.record.get? "status" = some (.string draft.status.text))
    (h : Record.IsStampOf draft.key previous now draft.record stored) : Replaces draft stored where
  status := by rw [h.others "status" (by decide), hstatus]
  others field hcreated hupdated := by
    by_cases hfield : field = "key"
    · rw [hfield, h.key, hkey]
    · apply h.others
      simp [Record.stampedFields, hfield, hcreated, hupdated]

section Answers

variable {board : Board} {t : Table} {r : Request} (hmethod : r.method = "POST")
  (hresource : Resource.ofTarget r.target = .deliveries)
  (hadmits : board.guard.admits r.headers = true)

include hmethod hresource hadmits

/-- A delivery that becomes no record leaves the table and tells none. -/
theorem answer_of_no_draft (hdraft : deliveryDraft board r = .ok none) :
    (board.answer .direct t r).2.status = 200 ∧ (board.answer .direct t r).1 = t ∧
      TellsNoRecord (board.answer .direct t r).2 := by
  have hoptions : r.method ≠ "OPTIONS" := by
    rw [hmethod]
    decide
  have hcarried : carryOut board .direct t r = (t, .ok (deliveryReply r [])) := by
    rw [carryOut_of_delivery .direct t hmethod hresource, takeDelivery_eq, hdraft]
    rfl
  have hbody :=
    body_of_carried hoptions hadmits (congrArg Prod.snd hcarried) (by rw [hmethod]; decide)
  obtain ⟨hstatus, htable⟩ := answer_of_carried hoptions hadmits hcarried
  refine ⟨hstatus, htable, _, Http.Answer.told?_of_body hbody, ?_, ?_⟩
  all_goals
    rw [deliveryReply, ok, List.append_nil]
    exact Value.member?_readBack_eq_none (by simp)

/-- One that fails leaves the table as well. -/
theorem answer_of_failed_draft {h : Halt} (hdraft : deliveryDraft board r = .error h) :
    (board.answer .direct t r).2.status = h.status ∧ (board.answer .direct t r).1 = t := by
  have hcarried : carryOut board .direct t r = (t, .error h) := by
    rw [carryOut_of_delivery .direct t hmethod hresource, takeDelivery_eq, hdraft]
    rfl
  exact answer_of_halted (by rw [hmethod]; decide) hadmits hcarried

variable {draft : Delivery.Draft} (hdraft : deliveryDraft board r = .ok (some draft))

include hdraft

/-- One that becomes a record fails if there is a value in its place that is none, -/
theorem answer_of_unreadable_place (hplace : t.IsUnreadableAt draft.key) :
    (board.answer .direct t r).2.status = 500 ∧ (board.answer .direct t r).1 = t := by
  obtain ⟨f, hf⟩ := Table.exists_fault_of_unreadable hplace
  have hcarried : carryOut board .direct t r =
      (t, .error (.ofTrouble (.failure (.unreadableRecord f)))) := by
    rw [carryOut_of_delivery .direct t hmethod hresource, takeDelivery_of_draft hdraft]
    exact writeDraft_of_unreadable rfl hf
  exact answer_of_halted (by rw [hmethod]; decide) hadmits hcarried

/-- and else tells the record. -/
theorem tellsRecord_of_delivery (hplace : ¬ t.IsUnreadableAt draft.key) :
    TellsRecord draft (board.answer .direct t r).2 := by
  have hcarried : (carryOut board .direct t r).2 =
      .ok (recordReply r draft (draft.record.stamp draft.key (t.record? draft.key) (clock r))) := by
    rw [carryOut_of_delivery .direct t hmethod hresource, takeDelivery_of_draft hdraft]
    exact congrArg Prod.snd (writeDraft_of_readable rfl (Table.getRecord_of_readable hplace))
  have hbody := body_of_carried (by rw [hmethod]; decide) hadmits hcarried (by rw [hmethod]; decide)
  refine ⟨(tells_iff [("success", .boolean true), ("event", .string _)] (by simp) hbody _).2 rfl,
    ?_⟩
  rw [Http.Answer.told_of_field [("success", .boolean true), ("event", .string _),
    ("key", .string _)]
    (by simp) hbody, Value.readBack_string]

end Answers

/-- A delivery whose event counts and whose body is a value is settled by what the value becomes. -/
theorem settles_answer {board : Board} {r : Request} {kind : Kind} {payload : Value}
    (hmethod : r.method = "POST") (hresource : Resource.ofTarget r.target = .deliveries)
    (hadmits : board.guard.admits r.headers = true) (hlength : r.body.length ≤ board.limits.body)
    (hannounces : Announces kind r) (hpayload : Json.decode r.body = .ok payload) (t : Table) :
    Settles t (board.answer .direct t r).1 (board.answer .direct t r).2
      (Delivery.normalize kind.event payload (clock r)) := by
  have hdraft : deliveryDraft board r =
      .ok (Delivery.normalize kind.event payload (clock r)).draft? := by
    rw [deliveryDraft_of_rule hlength hannounces (Delivery.rule?_event kind), hpayload]
    rfl
  cases houtcome : Delivery.normalize kind.event payload (clock r) with
  | unrecognized | incomplete gap =>
    rw [houtcome] at hdraft
    exact answer_of_no_draft hmethod hresource hadmits hdraft
  | record draft =>
    rw [houtcome] at hdraft
    refine ⟨answer_of_unreadable_place hmethod hresource hadmits hdraft, fun hplace => ?_⟩
    obtain ⟨hstatus, htable⟩ := answer_of_delivery hmethod hresource hadmits hdraft
      (Table.getRecord_of_readable hplace)
    refine ⟨hstatus, tellsRecord_of_delivery hmethod hresource hadmits hdraft hplace, _, ?_,
      replaces_of_isStampOf ?_ ?_
        (Record.isStampOf_stamp draft.key (t.record? draft.key) (clock r) _)⟩
    · rw [htable]
      exact Table.writesOnly_insert draft.key _ t
    -- The stamp sets the key anew, but the rule that made the draft has given it the same one.
    all_goals obtain ⟨rule, -, subject, identifier, -, rfl⟩ := Delivery.exists_of_normalize houtcome
    · exact Delivery.get?_key_draft rule payload subject identifier (clock r)
    · exact Delivery.get?_status_draft rule payload subject identifier (clock r)

/-- A delivery that announces none of the kinds finds no rule. -/
theorem rule?_of_unannounced {r : Request} (h : ∀ kind, ¬ Announces kind r) :
    Delivery.rule? ((r.headers.text? eventHeader).getD "") = none := by
  apply Delivery.rule?_eq_none_iff.2
  intro kind hkind
  cases hevent : r.headers.text? eventHeader with
  | none =>
    have hnamed : kind.event ≠ "" := by cases kind <;> decide
    rw [hevent, Option.getD_none] at hkind
    exact hnamed hkind.symm
  | some event =>
    rw [hevent, Option.getD_some] at hkind
    rw [hkind] at hevent
    exact h kind hevent

/--
**A delivery writes its record and nothing else.**  Let the guard let a delivery through whose body
is not too long.

* If its event header is missing, or cannot be read, or names an event that does not count, then it
  is answered with 200, without a key or a status, and leaves the table, whatever the body.
* Else, if its body is no value, it is answered with 500 and leaves the table.
* If what the payload becomes is incomplete, it is answered as if its event did not count.
* If it is a record, then either there is a value in its place that is none, and the delivery is
  answered with 500 and leaves the table; or it is answered with 200, with the key and the status of
  the record, and the table differs from the one before only in having the record in its place.  No
  field of it but the moments of its first and its last write comes from anywhere but the delivery.
-/
theorem delivery_writes_its_record (board : Board) (t : Table) {r : Request}
    (hmethod : r.method = "POST") (hresource : Resource.ofTarget r.target = .deliveries)
    (hadmits : board.guard.admits r.headers = true) (hlength : r.body.length ≤ board.limits.body) :
    ((∀ kind, ¬ Announces kind r) →
      (board.answer .direct t r).2.status = 200 ∧ (board.answer .direct t r).1 = t ∧
        TellsNoRecord (board.answer .direct t r).2) ∧
    ∀ kind, Announces kind r →
      (∀ f, Json.decode r.body = .error f →
        (board.answer .direct t r).2.status = 500 ∧ (board.answer .direct t r).1 = t) ∧
      (∀ payload, Json.decode r.body = .ok payload →
        Settles t (board.answer .direct t r).1 (board.answer .direct t r).2
          (Delivery.normalize kind.event payload (clock r))) := by
  refine ⟨fun hunannounced => ?_, fun kind hannounces =>
    ⟨fun f hf => ?_, fun payload hpayload => ?_⟩⟩
  · apply answer_of_no_draft hmethod hresource hadmits
    exact deliveryDraft_of_no_rule hlength (rule?_of_unannounced hunannounced)
  · have hdraft : deliveryDraft board r = .error (.failure (.badBody f)) := by
      rw [deliveryDraft_of_rule hlength hannounces (Delivery.rule?_event kind), hf]
      rfl
    exact answer_of_failed_draft hmethod hresource hadmits hdraft
  · exact settles_answer hmethod hresource hadmits hlength hannounces hpayload t

/-- A delivery takes the place of a record without fields, and leaves the one beside it. -/
theorem issue_delivery_writes_its_record :
    ∃ (board : Board) (t : Table) (stored : Record),
      Board.ofSettings { ({} : Settings) with apiKey := some "k" } = .ok board ∧
      t = (Table.empty.insert "a" Record.empty.encode).insert "task:issue-1" Record.empty.encode ∧
      (board.answer .direct t (issueDelivery 0)).2.status = 200 ∧
      Tells "task:issue-1" (board.answer .direct t (issueDelivery 0)).2 ∧
      (board.answer .direct t (issueDelivery 0)).1.get? "task:issue-1" = some stored.encode ∧
      stored.get? "status" = some (.string "todo") ∧
      (board.answer .direct t (issueDelivery 0)).1.get? "a" = some Record.empty.encode := by
  obtain ⟨board, hboard⟩ := exists_board "k" (by decide)
  obtain ⟨t, ht⟩ : ∃ t,
      t = (Table.empty.insert "a" Record.empty.encode).insert "task:issue-1" Record.empty.encode :=
    ⟨_, rfl⟩
  have hbeside : t.get? "a" = some Record.empty.encode := by
    rw [ht, Table.get?_insert, if_neg (by decide), Table.get?_insert, if_pos rfl]
  have hplace : ¬ t.IsUnreadableAt "task:issue-1" := by
    apply Table.not_isUnreadableAt_of_record?
    rw [ht, Table.record?, Table.get?_insert, if_pos rfl, Option.bind_some, decode_empty]
    rfl
  obtain ⟨-, hannounced⟩ := delivery_writes_its_record board t (r := issueDelivery 0) rfl
    (resource_issueDelivery 0) (admits_issueDelivery hboard 0)
    (length_issueDelivery_le hboard (by decide))
  obtain ⟨-, hsettles⟩ := hannounced .issue (event_issueDelivery 0)
  have houtcome : Delivery.normalize Kind.issue.event (issuePayload 0) (clock (issueDelivery 0)) =
      .record (issueDraft 0) := rfl
  have hsettled := hsettles (issuePayload 0) (decode_issueDelivery (by decide))
  rw [houtcome] at hsettled
  obtain ⟨-, hwritten⟩ := hsettled
  obtain ⟨hstatus, htells, stored, honly, hreplaces⟩ := hwritten hplace
  exact ⟨board, t, stored, hboard.settings, ht, hstatus, htells.key, honly.here, hreplaces.status,
    (honly.elsewhere "a" (by decide)).trans hbeside⟩

end RecordBoard.Board
