import RecordBoard.Proofs.Board.Commute
import RecordBoard.Proofs.Board.Readable
import RecordBoard.Proofs.Delivery.Subject

/-!
# Subjects have records of their own

Where the record of a delivery goes depends on what the delivery is about and on nothing else of its
payload, and two deliveries share a place only if they are about the same subject.  So any number of
deliveries about other subjects leaves the record of a subject as it is, and any number about the
subject itself leaves everything else.

## Main definitions

* `IsDelivery`, `Carries` — a request that brings a delivery, and what the delivery is about.

## Main results

* `exists_carries_of_addressed` — a delivery addresses the place of its subject, if any.
* `subjects_never_share_a_record` — places are told apart like subjects, and runs of deliveries keep
  to them.
-/

namespace RecordBoard.Board

open Json (Value)
open Store (Backend Table)
open Http (Request)
open Delivery (Kind Concerns)

/-- A request that brings a delivery. -/
structure IsDelivery (r : Request) : Prop where
  /-- It posts, -/
  method : r.method = "POST"
  /-- and to where deliveries go. -/
  resource : Resource.ofTarget r.target = .deliveries

/-- The event that a request announces and the value in its body are about this subject. -/
def Carries (event identifier : String) (r : Request) : Prop :=
  r.headers.text? eventHeader = some event ∧
    ∃ payload, Json.decode r.body = .ok payload ∧ Concerns event payload identifier

theorem IsDelivery.isWrite {r : Request} (h : IsDelivery r) : IsWrite r := by
  unfold IsWrite
  rw [h.resource, h.method]
  trivial

/-- What a request brings is about one subject at most. -/
theorem Carries.unique {event event' identifier identifier' : String} {r : Request}
    (h : Carries event identifier r) (h' : Carries event' identifier' r) :
    event = event' ∧ identifier = identifier' := by
  obtain ⟨hevent, payload, hpayload, hconcerns⟩ := h
  obtain ⟨hevent', payload', hpayload', hconcerns'⟩ := h'
  have hsame : event = event' := Option.some.inj (hevent.symm.trans hevent')
  have hvalue : payload = payload' := Except.ok.inj (hpayload.symm.trans hpayload')
  subst hsame hvalue
  exact ⟨rfl, hconcerns.unique hconcerns'⟩

/-- A delivery that becomes a record goes to the place of its subject. -/
theorem exists_carries_of_deliveryDraft {board : Board} {r : Request} {draft : Delivery.Draft}
    (h : deliveryDraft board r = .ok (some draft)) :
    ∃ kind identifier, Carries (Kind.event kind) identifier r ∧
    draft.key = kind.keyStem ++ identifier := by
  obtain ⟨-, hrule, payload, hpayload, houtcome⟩ := exists_payload_of_deliveryDraft h
  obtain ⟨kind, identifier, hevent, hconcerns, hkey⟩ :=
    Delivery.exists_subject_of_normalize houtcome
  refine ⟨kind, identifier, ⟨?_, payload, hpayload, ?_⟩, hkey⟩
  · cases hheader : r.headers.text? eventHeader with
    | none =>
      -- Without a header the event is the empty text, for which there is no rule.
      rw [hheader] at hrule
      exact absurd hrule (by decide)
    | some event =>
      rw [hheader, Option.getD_some] at hevent
      rw [hevent]
  · rw [← hevent]
    exact hconcerns

/-- A delivery addresses the place of its subject, if any. -/
theorem exists_carries_of_addressed {board : Board} {r : Request} (hr : IsDelivery r) {key : String}
    (hkey : key ∈ addressed board r) :
    ∃ kind identifier, Carries (Kind.event kind) identifier r ∧
    key = kind.keyStem ++ identifier := by
  unfold addressed at hkey
  rw [hr.resource, hr.method] at hkey
  obtain ⟨draft, hmem, rfl⟩ := List.mem_map.1 hkey
  obtain ⟨found, hfound, hdraft⟩ := Option.bind_eq_some_iff.1 (Option.mem_toList.1 hmem)
  obtain rfl : found = some draft := hdraft
  exact exists_carries_of_deliveryDraft (ok_of_mem_toList (Option.mem_toList.2 hfound))

/-! ## Runs of deliveries -/

section Runs

variable {board : Board} {kind : Kind} {identifier : String} {rs : List Request}
  (hrs : ∀ r ∈ rs, IsDelivery r)

include hrs

/-- Deliveries leave what is in a place that none of them addresses. -/
theorem get?_run_of_not_addressed {key : String} (h : ∀ r ∈ rs, key ∉ addressed board r)
    (t : Table) :
    (board.run .direct t rs).1.get? key = t.get? key := by
  apply run_induction board .direct rs (P := fun new => new.get? key = t.get? key) rfl
  intro new r hr hnew
  rw [(localTo_answer board (hrs r hr).isWrite).frame new key (h r hr), hnew]

/-- Deliveries about other subjects leave what is in the place of a subject. -/
theorem get?_run_of_others (h : ∀ r ∈ rs, ¬ Carries kind.event identifier r) (t : Table) :
    (board.run .direct t rs).1.get? (kind.keyStem ++ identifier) =
      t.get? (kind.keyStem ++ identifier) := by
  apply get?_run_of_not_addressed hrs
  intro r hr hkey
  obtain ⟨kind', identifier', hcarries, hplace⟩ := exists_carries_of_addressed (hrs r hr) hkey
  obtain ⟨rfl, rfl⟩ := Kind.keyStem_append_eq_iff.1 hplace
  exact h r hr hcarries

/-- Deliveries about a subject leave what is in any other place. -/
theorem get?_run_of_same (h : ∀ r ∈ rs, Carries kind.event identifier r) {key : String}
    (hkey : key ≠ kind.keyStem ++ identifier) (t : Table) :
    (board.run .direct t rs).1.get? key = t.get? key := by
  apply get?_run_of_not_addressed hrs
  intro r hr hmem
  obtain ⟨kind', identifier', hcarries, rfl⟩ := exists_carries_of_addressed (hrs r hr) hmem
  obtain ⟨hevent, hidentifier⟩ := hcarries.unique (h r hr)
  apply hkey
  rw [Kind.event_injective hevent, hidentifier]

end Runs

/--
**Subjects never share a record.**  Let two deliveries become records, whatever their events, their
payloads and their clocks.

* The records go to the same place if and only if the events are the same and the same text tells
  the two subjects apart: a string as it is, a number as it is written.
* Any deliveries to a board, if none of them is about the subject of the first one, leave what is in
  the place of its record; and if all of them are about that subject, they leave what is in any
  other place.
-/
theorem subjects_never_share_a_record {event event' : String} {payload payload' : Value}
    {now now' : UInt64} {draft draft' : Delivery.Draft}
    (h : Delivery.normalize event payload now = .record draft)
    (h' : Delivery.normalize event' payload' now' = .record draft') :
    (draft.key = draft'.key ↔
      event = event' ∧ ∃ identifier, Concerns event payload identifier ∧
      Concerns event' payload' identifier) ∧
    ∃ identifier, Concerns event payload identifier ∧
      ∀ (board : Board) (t : Table) (rs : List Request), (∀ r ∈ rs, IsDelivery r) →
        ((∀ r ∈ rs, ¬ Carries event identifier r) →
          (board.run .direct t rs).1.get? draft.key = t.get? draft.key) ∧
        ((∀ r ∈ rs, Carries event identifier r) → ∀ key, key ≠ draft.key →
          (board.run .direct t rs).1.get? key = t.get? key) := by
  obtain ⟨kind, identifier, rfl, hconcerns, hkey⟩ := Delivery.exists_subject_of_normalize h
  refine ⟨Delivery.key_eq_iff h h', identifier, hconcerns, ?_⟩
  intro board t rs hrs
  rw [hkey]
  constructor
  · intro hothers
    exact get?_run_of_others hrs hothers t
  · intro hsame key hne
    exact get?_run_of_same hrs hsame hne t

/-- A pull request that is told apart by what looks like an issue, and an issue that is delivered
twice. -/
theorem issue_spares_pull_request :
    ∃ (board : Board) (t : Table) (draft draft' : Delivery.Draft),
      Board.ofSettings { ({} : Settings) with apiKey := some "k" } = .ok board ∧
      t = Table.empty.insert "task:pr-issue-1" Record.empty.encode ∧
      Delivery.normalize "pull_request"
        (.object [("pull_request", .object [("number", .string "issue-1")])]) 5 = .record draft ∧
      Delivery.normalize "issues" (issuePayload 0) 7 = .record draft' ∧
      draft.key = "task:pr-issue-1" ∧ draft'.key ≠ draft.key ∧
      (board.run .direct t [issueDelivery 0, issueDelivery 0]).1.get? "task:pr-issue-1" =
        some Record.empty.encode := by
  obtain ⟨board, hboard⟩ := exists_board "k" (by decide)
  obtain ⟨draft, hdraft, hkey⟩ : ∃ draft, Delivery.normalize "pull_request"
      (.object [("pull_request", .object [("number", .string "issue-1")])]) 5 = .record draft ∧
      draft.key = "task:pr-issue-1" := ⟨_, rfl, rfl⟩
  obtain ⟨draft', hdraft'⟩ : ∃ draft', Delivery.normalize "issues" (issuePayload 0) 7 =
    .record draft' := ⟨_, rfl⟩
  obtain ⟨hplace, identifier, -, hruns⟩ := subjects_never_share_a_record hdraft hdraft'
  have hdelivery : ∀ r ∈ [issueDelivery 0, issueDelivery 0], IsDelivery r := by
    simp [IsDelivery.mk rfl (resource_issueDelivery 0)]
  have hspared : ∀ r ∈ [issueDelivery 0, issueDelivery 0],
      ¬ Carries "pull_request" identifier r := by
    intro r hr hcarries
    obtain rfl : r = issueDelivery 0 := by simpa using hr
    exact absurd (hcarries.1.symm.trans (event_issueDelivery 0)) (by decide)
  obtain ⟨hothers, -⟩ := hruns board (Table.empty.insert "task:pr-issue-1" Record.empty.encode)
    [issueDelivery 0, issueDelivery 0] hdelivery
  refine ⟨board, _, draft, draft', hboard.settings, rfl, hdraft, hdraft', hkey, ?_, ?_⟩
  · intro hsame
    exact absurd (hplace.1 hsame.symm).1 (by decide)
  · have hleft := hothers hspared
    rw [hkey] at hleft
    simpa using hleft

end RecordBoard.Board
