import RecordBoard.Proofs.Board.Created
import RecordBoard.Proofs.Board.Sync

/-!
# What is acknowledged is stored

Whoever sees all answers of a service that began with an empty table knows which keys are in it.  A
key is there if some answer said that a record was written under it, and no answer behind that one
said that it was deleted.  The answers to deletions and to status updates, which say whether a key
was there, agree with that.

For one answer this is `accounts_answer`: after it the keys are those that it acknowledges, and of
those before it the ones that it does not withdraw.  A request that is not carried out says nothing
and does nothing; each of the others is a case of its own, since each says in its own way under
which key it has written.

## Main definitions

* `Acknowledges`, `Withdraws` — what an answer says about a key.
* `history` — the requests of a run with their answers.
* `IsAcknowledged` — a key that was acknowledged and not withdrawn since.

## Main results

* `accounts_answer` — one request.
* `present_iff_of_run` — a run on any table.
* `acknowledged_keys_are_stored` — a run on the empty table.
-/

namespace RecordBoard.Board

open Json (Value)
open Store (Backend Table)
open Http (Request Answer)

/-! ## What answers say -/

/-- An answer that tells a key. -/
def Tells (key : String) (a : Answer) : Prop :=
  a.told?.bind (Value.member? "key") = some (.string key)

/-- An answer that says that a record is written under a key. -/
inductive Acknowledges (key : String) (r : Request) (a : Answer) : Prop
  /-- A record was put in its place, or its status was. -/
  | put (hmethod : r.method = "PUT") (hstatus : a.status = 200) (hkey : Tells key a)
  /-- A record was made. -/
  | create (hmethod : r.method = "POST") (hstatus : a.status = 201) (hkey : Tells key a)
  /-- A slot of a sync is a success. -/
  | sync (hmethod : r.method = "POST") (hresource : Resource.ofTarget r.target = .sync)
      (hstatus : a.status = 200) {results : List Value} {slot : Value}
      (hresults : a.told?.bind (Value.member? "results") = some (.array results))
      (hslot : slot ∈ results) (hsuccess : saysSuccess slot = true)
      (hkey : slot.member? "key" = some (.string key))
  /-- A delivery became a record. -/
  | delivery (hmethod : r.method = "POST") (hresource : Resource.ofTarget r.target = .deliveries)
      (hstatus : a.status = 200) (hkey : Tells key a)

/-- An answer that says that nothing is under a key any more. -/
def Withdraws (key : String) (r : Request) (a : Answer) : Prop :=
  Asks "DELETE" key r ∧ a.status = 200

/-- The keys of a table are those that an answer acknowledges, and those before it that it does not
withdraw. -/
def Accounts (t new : Table) (r : Request) (a : Answer) : Prop :=
  ∀ key, (new.get? key).isSome = true ↔
    Acknowledges key r a ∨ ((t.get? key).isSome = true ∧ ¬ Withdraws key r a)

theorem Acknowledges.method {key : String} {r : Request} {a : Answer} (h : Acknowledges key r a) :
    r.method = "PUT" ∨ r.method = "POST" := by
  cases h with
  | put hmethod => exact .inl hmethod
  | create hmethod | sync hmethod | delivery hmethod => exact .inr hmethod

theorem Acknowledges.status {key : String} {r : Request} {a : Answer} (h : Acknowledges key r a) :
    a.status ∈ [200, 201] := by
  cases h with
  | put _ hstatus | create _ hstatus | sync _ _ hstatus | delivery _ _ hstatus => simp [hstatus]

theorem not_withdraws {r : Request} (h : r.method ≠ "DELETE") (key : String) (a : Answer) :
    ¬ Withdraws key r a :=
  fun hwithdraws => h hwithdraws.1.1

section Accounts

variable {t : Table} {r : Request} {a : Answer}

theorem accounts_of_unchanged (hacknowledges : ∀ key, ¬ Acknowledges key r a)
    (hwithdraws : ∀ key, ¬ Withdraws key r a) : Accounts t t r a := by
  intro key
  simp [hacknowledges key, hwithdraws key]

theorem accounts_of_insert {key : String} (value : Bytes) (hmethod : r.method ≠ "DELETE")
    (hacknowledges : ∀ other, Acknowledges other r a ↔ other = key) :
    Accounts t (t.insert key value) r a := by
  intro other
  rw [Table.get?_insert, hacknowledges]
  by_cases hother : other = key <;> simp [hother, not_withdraws hmethod]

/-! Where one key is acknowledged at most, it is the one that the answer tells. -/

theorem acknowledges_iff_of_put (hmethod : r.method = "PUT") (hstatus : a.status = 200)
    (key : String) :
    Acknowledges key r a ↔ Tells key a := by
  refine ⟨fun h => ?_, fun h => .put hmethod hstatus h⟩
  cases h with
  | put _ _ hkey => exact hkey
  | create hpost | sync hpost | delivery hpost => simp [hmethod] at hpost

theorem acknowledges_iff_of_created (hmethod : r.method = "POST") (hstatus : a.status = 201)
    (key : String) :
    Acknowledges key r a ↔ Tells key a := by
  refine ⟨fun h => ?_, fun h => .create hmethod hstatus h⟩
  cases h with
  | create _ _ hkey => exact hkey
  | put hput => simp [hmethod] at hput
  | sync _ _ hok | delivery _ _ hok => simp [hstatus] at hok

theorem acknowledges_iff_of_delivery (hmethod : r.method = "POST")
    (hresource : Resource.ofTarget r.target = .deliveries) (hstatus : a.status = 200)
    (key : String) :
    Acknowledges key r a ↔ Tells key a := by
  refine ⟨fun h => ?_, fun h => .delivery hmethod hresource hstatus h⟩
  cases h with
  | create _ _ hkey | delivery _ _ _ hkey => exact hkey
  | put hput => simp [hmethod] at hput
  | sync _ hsync => simp [hresource] at hsync

/-- An answer that tells no success accounts for a table that stays as it is. -/
theorem accounts_of_status (hstatus : a.status ∉ [200, 201]) : Accounts t t r a := by
  refine accounts_of_unchanged (fun key h => hstatus h.status) fun key h => hstatus ?_
  rw [h.2]
  exact List.mem_cons_self

/-- So does an answer to a method that writes nothing. -/
theorem accounts_of_method (hmethod : r.method ∉ ["PUT", "POST", "DELETE"]) : Accounts t t r a := by
  refine accounts_of_unchanged (fun key h => hmethod ?_) fun key h => hmethod ?_
  · rcases h.method with h | h <;> simp [h]
  · simp [h.1.1]

end Accounts

/-! ## One request -/

theorem tells_iff {a : Answer} (front : List (String × Value)) {written : String}
    {back : List (String × Value)} (hback : ∀ e ∈ back, e.1 ≠ "key")
    (hbody : a.body = (Value.object (front ++ ("key", .string written) :: back)).text)
    (key : String) :
    Tells key a ↔ key = written := by
  rw [Tells, a.told_of_field front hback hbody, Value.readBack_string]
  simp [eq_comm]

theorem deleteRecord_of_key {segment key : String} (hkey : keyOf segment = .ok key) (t : Table) :
    deleteRecord .direct segment t = (t.erase key, .ok (ok [("success", .boolean true),
      ("key", .string key), ("deleted", .boolean (t.get? key).isSome)])) := by
  unfold deleteRecord
  rw [hkey]
  rfl

theorem carryOut_of_deleteMethod {board : Board} {b : Backend} {t : Table} {r : Request}
    {segment : String} (hmethod : r.method = "DELETE")
    (hresource : Resource.ofTarget r.target = .record segment) :
    carryOut board b t r = deleteRecord b segment t := by
  unfold carryOut
  rw [hmethod, hresource]
  rfl

/-- A draft that is written is accounted for by an answer that acknowledges its key. -/
theorem accounts_of_writeDraft {α : Type} {t : Table} {r : Request} {a : Answer} {now : UInt64}
    {key : α → String} {record : α → Record} {f : α → Record → Reply} {draft : Except Halt α}
    {reply : Reply} (hmethod : r.method ≠ "DELETE")
    (hreply : (writeDraft .direct now key record f draft t).2 = .ok reply)
    (hacknowledges : ∀ d stored, reply = f d stored →
      ∀ other, Acknowledges other r a ↔ other = key d) :
    Accounts t (writeDraft .direct now key record f draft t).1 r a := by
  obtain ⟨d, previous, stored, -, -, -, heq, htable⟩ := exists_of_writeDraft hreply
  rw [htable]
  exact accounts_of_insert _ hmethod (hacknowledges d stored heq)

section Handlers

variable {board : Board} {t : Table} {r : Request} {a : Answer} {segment : String} {reply : Reply}
  (hstatus : a.status = reply.status) (hbody : a.body = reply.body.text)

include hstatus hbody

theorem accounts_put (hmethod : r.method = "PUT")
    (hreply : (putRecord board .direct segment r t).2 = .ok reply) :
    Accounts t (putRecord board .direct segment r t).1 r a := by
  rw [putRecord_eq] at hreply ⊢
  refine accounts_of_writeDraft (by simp [hmethod]) hreply fun draft stored hdraft key => ?_
  cases hdraft
  rw [acknowledges_iff_of_put hmethod hstatus]
  exact tells_iff [("success", .boolean true)] (by simp) hbody key

theorem accounts_move (hmethod : r.method = "PUT")
    (hreply : (moveRecord board .direct segment r t).2 = .ok reply) :
    Accounts t (moveRecord board .direct segment r t).1 r a := by
  rw [moveRecord_eq] at hreply ⊢
  refine accounts_of_writeDraft (by simp [hmethod]) hreply fun draft stored hdraft key => ?_
  cases hdraft
  rw [acknowledges_iff_of_put hmethod hstatus]
  exact tells_iff [("success", .boolean true)] (by simp) hbody key

theorem accounts_create (hmethod : r.method = "POST")
    (hreply : (createRecord board .direct r t).2 = .ok reply) :
    Accounts t (createRecord board .direct r t).1 r a := by
  rw [createRecord_eq] at hreply ⊢
  refine accounts_of_writeDraft (by simp [hmethod]) hreply fun draft stored hdraft key => ?_
  cases hdraft
  rw [acknowledges_iff_of_created hmethod hstatus]
  exact tells_iff [("success", .boolean true)] (by simp) hbody key

theorem accounts_delete (hmethod : r.method = "DELETE")
    (hresource : Resource.ofTarget r.target = .record segment)
    (hreply : (deleteRecord .direct segment t).2 = .ok reply) :
    Accounts t (deleteRecord .direct segment t).1 r a := by
  cases hkey : keyOf segment with
  | error e =>
    unfold deleteRecord at hreply
    rw [hkey] at hreply
    cases hreply
  | ok key =>
    rw [deleteRecord_of_key hkey] at hreply ⊢
    cases hreply
    intro other
    have hasks : Withdraws other r a ↔ other = key := by
      constructor
      · rintro ⟨⟨-, segment', hresource', hother⟩, -⟩
        rw [hresource] at hresource'
        cases hresource'
        rw [hkey] at hother
        cases hother
        rfl
      · rintro rfl
        exact ⟨⟨hmethod, segment, hresource, hkey⟩, hstatus⟩
    have hnone : ¬ Acknowledges other r a := by
      intro h
      rcases h.method with h | h <;> simp [hmethod] at h
    show ((t.erase key).get? other).isSome = true ↔ _
    rw [Table.get?_erase, hasks]
    by_cases hother : other = key
    · simp only [hother, if_true, Option.isSome_none, Bool.false_eq_true, not_true_eq_false,
        and_false, or_false, false_iff]
      exact hother ▸ hnone
    · simp [hother, hnone]

theorem accounts_delivery (hmethod : r.method = "POST")
    (hresource : Resource.ofTarget r.target = .deliveries)
    (hreply : (takeDelivery board .direct r t).2 = .ok reply) :
    Accounts t (takeDelivery board .direct r t).1 r a := by
  have hack := acknowledges_iff_of_delivery (a := a) hmethod hresource
  have hdelete : r.method ≠ "DELETE" := by simp [hmethod]
  cases hdraft : deliveryDraft board r with
  | error e =>
    rw [takeDelivery_eq, hdraft] at hreply
    cases hreply
  | ok found =>
    cases found with
    | none =>
      rw [takeDelivery_eq, hdraft] at hreply ⊢
      cases hreply
      refine accounts_of_unchanged (fun key h => ?_) fun key => not_withdraws hdelete key a
      have htold := (hack hstatus key).1 h
      rw [Tells, a.told?_of_body hbody, Option.bind_some, deliveryReply, ok, List.append_nil,
        Value.member?_readBack_eq_none (by simp)] at htold
      cases htold
    | some draft =>
      rw [takeDelivery_of_draft hdraft] at hreply ⊢
      refine accounts_of_writeDraft hdelete hreply fun draft stored hdraft key => ?_
      cases hdraft
      rw [hack hstatus]
      exact tells_iff [("success", .boolean true), ("event", .string _)] (by simp) hbody key

end Handlers

/-- The slots of a sync say which keys it leaves besides those that were there. -/
theorem present_of_syncAll (now : UInt64) (t : Table) (items : List Value) :
    ∃ new slots, syncAll .direct now items t = (new, .ok slots) ∧
      ∀ key, (new.get? key).isSome = true ↔ (t.get? key).isSome = true ∨
        ∃ slot ∈ slots, slot.success = true ∧ slot.key = some key := by
  induction items generalizing t with
  | nil => exact ⟨t, [], rfl, by simp⟩
  | cons v rest ih =>
    have hone : ∃ new slot, syncOne .direct now v t = (new, .ok slot) ∧
        ∀ key, (new.get? key).isSome = true ↔ (t.get? key).isSome = true ∨
          (slot.success = true ∧ slot.key = some key) := by
      cases hdraft : syncDraft? v with
      | none =>
        obtain ⟨e, hone⟩ := syncOne_of_no_draft hdraft
        exact ⟨t, _, congrFun (hone .direct now) t, by simp⟩
      | some draft =>
        obtain ⟨key, record⟩ := draft
        have hone := congrFun (syncOne_of_draft hdraft .direct now) t
        rw [Store.Action.told] at hone
        cases hprevious : Backend.direct.getRecord t key with
        | ok previous =>
          rw [Store.upsert_of_ok hprevious] at hone
          refine ⟨_, _, hone, fun other => ?_⟩
          rw [Table.get?_insert]
          by_cases hother : other = key
          · simp [hother, Slot.success]
          · simp [hother, Ne.symm hother]
        | error e =>
          cases e with
          | failure f =>
            rw [Store.upsert_of_error hprevious] at hone
            exact ⟨t, _, hone, by simp [Slot.success]⟩
          | panic p =>
            obtain ⟨f, hf⟩ := Backend.isFailure_of_isFrom (b := .direct) trivial
              (Backend.direct.ends_getRecord t none key _ hprevious)
            cases hf
    obtain ⟨new, slot, hone, hslot⟩ := hone
    obtain ⟨last, slots, hall, hslots⟩ := ih new
    refine ⟨last, slot :: slots, ?_, fun key => ?_⟩
    · rw [syncAll, Store.Action.bind_of_ok hone, Store.Action.bind_of_ok hall]
      rfl
    · rw [hslots, hslot]
      simp [or_assoc]

/-- A sync acknowledges the keys of the slots that are successes. -/
theorem acknowledges_sync_iff {key : String} {r : Request} {a : Answer} {now : UInt64}
    {slots : List Slot} (hmethod : r.method = "POST")
    (hresource : Resource.ofTarget r.target = .sync) (hstatus : a.status = 200)
    (hbody : a.body = (syncReply now slots).body.text) :
    Acknowledges key r a ↔ ∃ slot ∈ slots, slot.success = true ∧ slot.key = some key := by
  constructor
  · intro h
    cases h with
    | put hput => simp [hmethod] at hput
    | create _ hcreated => simp [hstatus] at hcreated
    | delivery _ hdelivery => simp [hresource] at hdelivery
    | sync _ _ _ hresults hslot hsuccess hkey =>
      rw [told_results hbody] at hresults
      cases hresults
      obtain ⟨slot, hmem, rfl⟩ := List.mem_map.1 hslot
      rw [saysSuccess_slot] at hsuccess
      rw [told_key] at hkey
      refine ⟨slot, hmem, hsuccess, ?_⟩
      cases hasked : slot.key with
      | none => simp [hasked, Value.ofString?] at hkey
      | some asked => simpa [hasked, Value.ofString?] using hkey
  · rintro ⟨slot, hslot, hsuccess, hkey⟩
    refine .sync hmethod hresource hstatus (told_results hbody) (List.mem_map_of_mem hslot) ?_ ?_
    · rw [saysSuccess_slot, hsuccess]
    · rw [told_key, hkey]
      rfl

theorem accounts_sync {board : Board} {t : Table} {r : Request} {a : Answer} {reply : Reply}
    (hstatus : a.status = reply.status) (hbody : a.body = reply.body.text)
    (hmethod : r.method = "POST") (hresource : Resource.ofTarget r.target = .sync)
    (hreply : (sync board .direct r t).2 = .ok reply) :
    Accounts t (sync board .direct r t).1 r a := by
  cases hrecords : syncRecords board r with
  | error h =>
    unfold sync at hreply
    rw [hrecords] at hreply
    cases hreply
  | ok items =>
    obtain ⟨new, slots, hall, hslots⟩ := present_of_syncAll (clock r) t items
    rw [sync_of_slots hrecords hall] at hreply ⊢
    cases hreply
    intro key
    have hkept : ¬ Withdraws key r a := not_withdraws (by rw [hmethod]; decide) key a
    simp only [hslots, acknowledges_sync_iff hmethod hresource hstatus hbody, hkept,
      not_false_eq_true, and_true, or_comm]

/-- A method that asks for something to be written. -/
theorem method_of_write {method : String} {verb : Verb} (h : Verb.ofMethod method = verb)
    (hverb : verb = .put ∨ verb = .post ∨ verb = .delete) : method ≠ "HEAD" := by
  rintro rfl
  subst h
  exact absurd hverb (by decide)

theorem method_of_get {method : String} (h : Verb.ofMethod method = .get) :
    method ∉ ["PUT", "POST", "DELETE"] := by
  intro hmem
  simp only [List.mem_cons, List.not_mem_nil, or_false] at hmem
  rcases hmem with rfl | rfl | rfl <;> exact absurd h (by decide)

/-- After a request the keys are those that its answer acknowledges, and those before it that it
leaves. -/
theorem accounts_answer (board : Board) (t : Table) (r : Request) :
    Accounts t (board.answer .direct t r).1 r (board.answer .direct t r).2 := by
  by_cases hoptions : r.method = "OPTIONS"
  · have hsame : (board.answer .direct t r).1 = t := by
      unfold answer
      rw [if_pos hoptions]
    rw [hsame]
    exact accounts_of_method (by simp [hoptions])
  have htable : (board.answer .direct t r).1 = (outcome board .direct t r).1 := by
    rw [answer_of_method board _ t hoptions]
  rw [htable]
  cases hreply : (outcome board .direct t r).2 with
  | error h =>
    have hsame := outcome_of_halt (b := .direct) (fun _ _ => trivial) hreply
    rw [hsame]
    refine accounts_of_status ?_
    rw [answer_of_method board _ t hoptions, hreply, status_withOrigins]
    exact status_of_halt _ _ h
  | ok reply =>
    obtain ⟨hstatus, hbody⟩ := answer_of_reply hoptions hreply
    obtain ⟨-, hcarried⟩ := carryOut_of_reply hreply
    rw [hcarried] at hreply ⊢
    -- From here on the status and the body are all that matters of the answer.
    generalize (board.answer .direct t r).2 = a at hstatus hbody
    have hwrite := fun hverb => hbody (method_of_write rfl hverb)
    by_cases hget : Verb.ofMethod r.method = .get
    · rw [carryOut_of_read board .direct t hget]
      exact accounts_of_method (method_of_get hget)
    unfold carryOut at hreply ⊢
    split at hreply
    case h_1 hverb | h_2 hverb | h_3 hverb | h_5 hverb | h_11 hverb => exact absurd hverb hget
    case h_4 hverb =>
      exact accounts_create hstatus (hwrite (by simp [hverb]))
        ((method_of_verb hverb).2.1 rfl) hreply
    case h_6 hverb =>
      exact accounts_put hstatus (hwrite (by simp [hverb])) ((method_of_verb hverb).1 rfl) hreply
    case h_7 hresource hverb =>
      exact accounts_delete hstatus (hwrite (by simp [hverb]))
        ((method_of_verb hverb).2.2 rfl) hresource hreply
    case h_8 hverb =>
      exact accounts_move hstatus (hwrite (by simp [hverb])) ((method_of_verb hverb).1 rfl) hreply
    case h_9 hresource hverb =>
      exact accounts_sync hstatus (hwrite (by simp [hverb]))
        ((method_of_verb hverb).2.1 rfl) hresource hreply
    case h_10 hresource hverb =>
      exact accounts_delivery hstatus (hwrite (by simp [hverb]))
        ((method_of_verb hverb).2.1 rfl) hresource hreply
    case h_12 => cases hreply

/-! ## Runs -/

/-- The requests of a run with their answers. -/
def history (board : Board) (t : Table) (rs : List Request) : List (Request × Answer) :=
  rs.zip (board.run .direct t rs).2

theorem history_cons (board : Board) (t : Table) (r : Request) (rest : List Request) :
    history board t (r :: rest) =
      (r, (board.answer .direct t r).2) :: history board (board.answer .direct t r).1 rest := rfl

/-- What is behind an answer of a run is a run on the table that the requests in front of it
left. -/
theorem exists_of_history_eq_append {board : Board} {t : Table} {rs : List Request} {r : Request}
    {a : Answer} {front back : List (Request × Answer)}
    (h : history board t rs = front ++ (r, a) :: back) :
    ∃ before, front = history board t before ∧
      a = (board.answer .direct (board.run .direct t before).1 r).2 := by
  induction rs generalizing t front with
  | nil => simp [history] at h
  | cons r' rest ih =>
    rw [history_cons] at h
    cases front with
    | nil =>
      obtain ⟨heq, -⟩ := List.cons.inj h
      cases heq
      exact ⟨[], rfl, rfl⟩
    | cons e front =>
      obtain ⟨rfl, hrest⟩ := List.cons.inj h
      obtain ⟨before, rfl, rfl⟩ := ih hrest
      exact ⟨r' :: before, rfl, rfl⟩

/-- A key that some answer acknowledged, and no answer behind that one withdrew. -/
def IsAcknowledged (key : String) (h : List (Request × Answer)) : Prop :=
  ∃ front e back, h = front ++ e :: back ∧ Acknowledges key e.1 e.2 ∧
    ∀ e' ∈ back, ¬ Withdraws key e'.1 e'.2

theorem isAcknowledged_cons {key : String} {e : Request × Answer} {h : List (Request × Answer)} :
    IsAcknowledged key (e :: h) ↔
      IsAcknowledged key h ∨ (Acknowledges key e.1 e.2 ∧ ∀ e' ∈ h, ¬ Withdraws key e'.1 e'.2) := by
  constructor
  · rintro ⟨front, e', back, heq, hack, hkept⟩
    cases front with
    | nil =>
      obtain ⟨rfl, rfl⟩ := List.cons.inj heq
      exact .inr ⟨hack, hkept⟩
    | cons _ front =>
      obtain ⟨-, rfl⟩ := List.cons.inj heq
      exact .inl ⟨front, e', back, rfl, hack, hkept⟩
  · rintro (⟨front, e', back, rfl, hack, hkept⟩ | ⟨hack, hkept⟩)
    · exact ⟨e :: front, e', back, rfl, hack, hkept⟩
    · exact ⟨[], e, h, rfl, hack, hkept⟩

theorem not_isAcknowledged_nil (key : String) : ¬ IsAcknowledged key [] := by
  rintro ⟨front, e, back, heq, -⟩
  simp at heq

/-- After a run the keys are those that were acknowledged, and those before it that were never
withdrawn. -/
theorem present_iff_of_run (board : Board) (t : Table) (rs : List Request) (key : String) :
    ((board.run .direct t rs).1.get? key).isSome = true ↔
      IsAcknowledged key (history board t rs) ∨
        ((t.get? key).isSome = true ∧ ∀ e ∈ history board t rs, ¬ Withdraws key e.1 e.2) := by
  induction rs generalizing t with
  | nil => simp [history, not_isAcknowledged_nil]
  | cons r rest ih =>
    rw [run_cons, ih, accounts_answer board t r key, history_cons, isAcknowledged_cons,
      List.forall_mem_cons]
    tauto

theorem present_iff_of_empty (board : Board) (rs : List Request) (key : String) :
    ((board.run .direct .empty rs).1.get? key).isSome = true ↔
      IsAcknowledged key (history board .empty rs) := by
  rw [present_iff_of_run]
  simp [Table.empty, Table.get?]

/-- A deletion that the guard lets through is always carried out. -/
theorem answer_of_delete {board : Board} {t : Table} {r : Request} {key : String}
    (hdelete : Asks "DELETE" key r) (hadmits : board.guard.admits r.headers = true) :
    (board.answer .direct t r).2.status = 200 ∧ (board.answer .direct t r).1 = t.erase key := by
  obtain ⟨hmethod, segment, hresource, hkey⟩ := hdelete
  have hcarried : carryOut board .direct t r = (t.erase key, .ok (ok [("success", .boolean true),
      ("key", .string key), ("deleted", .boolean (t.get? key).isSome)])) := by
    rw [carryOut_of_deleteMethod hmethod hresource, deleteRecord_of_key hkey]
  exact answer_of_carried (by rw [hmethod]; decide) hadmits hcarried

/-- A deletion that is answered with 200 tells whether there was something under the key. -/
theorem told_of_delete {board : Board} {t : Table} {r : Request} {key : String}
    (hdelete : Asks "DELETE" key r) (hstatus : (board.answer .direct t r).2.status = 200) :
    (board.answer .direct t r).2.told?.bind (Value.member? "deleted") =
      some (.boolean (t.get? key).isSome) := by
  obtain ⟨hmethod, segment, hresource, hkey⟩ := hdelete
  obtain ⟨reply, hreply, -, hbody⟩ := reply_of_carried (by rw [hmethod]; decide)
    (carryOut_of_deleteMethod hmethod hresource) (by rw [hstatus]; decide)
  rw [deleteRecord_of_key hkey] at hreply
  cases hreply
  rw [Http.Answer.told_of_field [("success", .boolean true), ("key", .string key)] (by simp)
    (hbody (by rw [hmethod]; decide)), Value.readBack_boolean]

theorem error_of_bind {ε α β : Type} {result : Except ε α} {next : α → Except ε β} {e : ε}
    (h : result >>= next = .error e) :
    result = .error e ∨ ∃ a, result = .ok a ∧ next a = .error e := by
  cases result with
  | error e' =>
    cases h
    exact .inl rfl
  | ok a => exact .inr ⟨a, rfl, h⟩

theorem status_of_bodyOf {board : Board} {r : Request} {h : Halt}
    (hbody : bodyOf board r = .error h) :
    h.status = 500 := by
  unfold bodyOf at hbody
  split at hbody <;> cases hbody
  rfl

theorem status_of_parsed {α : Type} {result : Except Json.Fault α} {h : Halt}
    (hparsed : parsed result = .error h) :
    h.status = 500 := by
  cases result <;> cases hparsed
  rfl

theorem status_of_calling {α : Type} {call : Except Store.Trouble α} {h : Halt}
    (hcall : calling call = .error h) :
    h.status = 500 := by
  cases call with
  | ok a => cases hcall
  | error e => cases e <;> cases hcall <;> rfl

/-- A draft that was not written was none, or the store failed. -/
theorem error_of_writeDraft {α : Type} {b : Backend} {t : Table} {now : UInt64} {key : α → String}
    {record : α → Record} {reply : α → Record → Reply} {draft : Except Halt α} {h : Halt}
    (hwrite : (writeDraft b now key record reply draft t).2 = .error h) :
    draft = .error h ∨ h.status = 500 := by
  cases draft with
  | error e =>
    cases hwrite
    exact .inl rfl
  | ok d =>
    rw [writeDraft, Store.Action.check_bind, Store.Action.bind_pure_apply] at hwrite
    cases hcall : (performing (b.upsert (key d) (record d) now) t).2 with
    | error e =>
      rw [hcall] at hwrite
      cases hwrite
      exact .inr (status_of_calling hcall)
    | ok stored =>
      rw [hcall] at hwrite
      cases hwrite

/-- A status update fails with 404 only if there is nothing under the key. -/
theorem absent_of_moveDraft {board : Board} {t : Table} {r : Request} {segment key : String}
    {h : Halt} (hkey : keyOf segment = .ok key) (hdraft : moveDraft board t segment r = .error h)
    (hstatus : h.status = 404) : t.get? key = none := by
  have hother : h.status ≠ 500 := by
    rw [hstatus]
    decide
  unfold moveDraft at hdraft
  rw [hkey] at hdraft
  change (bodyOf board r >>= _) = _ at hdraft
  rcases error_of_bind hdraft with hbody | ⟨body, -, hdraft⟩
  · exact absurd (status_of_bodyOf hbody) hother
  rcases error_of_bind hdraft with hparsed | ⟨name, -, hdraft⟩
  · exact absurd (status_of_parsed hparsed) hother
  cases hname : Status.ofText? name with
  | none =>
    rw [hname] at hdraft
    cases hdraft
    exact absurd rfl hother
  | some status =>
    rw [hname] at hdraft
    rcases error_of_bind hdraft with hcall | ⟨found, hfound, hdraft⟩
    · exact absurd (status_of_calling hcall) hother
    · cases found with
      | none => exact Store.absent_of_getRecord (ok_of_mapError hfound)
      | some record => cases hdraft

/-- A status update is answered with 404 only if there is nothing under the key. -/
theorem absent_of_move {board : Board} {t : Table} {r : Request} {key : String}
    (hmove : AsksToMove key r) (hstatus : (board.answer .direct t r).2.status = 404) :
    t.get? key = none := by
  obtain ⟨hmethod, segment, hresource, hkey⟩ := hmove
  have hoptions : r.method ≠ "OPTIONS" := by
    rw [hmethod]
    decide
  cases hresult : (outcome board .direct t r).2 with
  | ok reply =>
    have hsuccess := (answer_of_reply hoptions hresult).1
    obtain ⟨-, hcarried⟩ := carryOut_of_reply hresult
    rw [hcarried] at hresult
    have hreply := status_of_carryOut hresult
    rw [IsSuccess, ← hsuccess, hstatus] at hreply
    simp at hreply
  | error h =>
    rw [status_of_error hoptions hresult] at hstatus
    have hother : h.status ≠ 500 := by
      rw [hstatus]
      decide
    unfold outcome at hresult
    split at hresult
    · cases hresult
      cases hstatus
    · rw [carryOut_of_moveMethod hmethod hresource] at hresult
      rcases error_of_writeDraft hresult with hdraft | hfailed
      · exact absent_of_moveDraft hkey hdraft hstatus
      · exact absurd hfailed hother

/--
**What is acknowledged is stored.**  After any run on the empty table its keys are those that an
answer acknowledged and none behind it withdrew.  Each deletion that is answered with 200 tells
whether the key was one of these just before it, and a status update is answered with 404 only if it
was not.
-/
theorem acknowledged_keys_are_stored (board : Board) (rs : List Request) :
    (∀ key, key ∈ (board.run .direct .empty rs).1.keys ↔
      IsAcknowledged key (history board .empty rs)) ∧
    ∀ front r a back key, history board .empty rs = front ++ (r, a) :: back →
      (Asks "DELETE" key r → a.status = 200 → ∃ deleted,
        a.told?.bind (Value.member? "deleted") = some (.boolean deleted) ∧
          (deleted = true ↔ IsAcknowledged key front)) ∧
      (AsksToMove key r → a.status = 404 → ¬ IsAcknowledged key front) := by
  constructor
  · intro key
    rw [← present_iff_of_empty]
    exact Keyed.isSome_get?_iff.symm
  · intro front r a back key h
    obtain ⟨before, rfl, rfl⟩ := exists_of_history_eq_append h
    constructor
    · intro hdelete hstatus
      exact ⟨_, told_of_delete hdelete hstatus, present_iff_of_empty board before key⟩
    · intro hmove hstatus
      rw [← present_iff_of_empty, absent_of_move hmove hstatus]
      exact Bool.false_ne_true

/-- A request to delete what `smallPut` puts. -/
def smallDelete (now : Int) : Request := carrying "k" "DELETE" "/state/a" [] now

theorem asks_smallDelete (now : Int) : Asks "DELETE" "a" (smallDelete now) :=
  ⟨rfl, "a", (by decide : Resource.ofTarget (Http.Target.ofText "/state/a") = _), rfl⟩

/-- A record is put and then deleted. -/
theorem deletion_tells_of_put :
    ∃ (board : Board) (t : Table),
      Board.ofSettings { ({} : Settings) with apiKey := some "k" } = .ok board ∧
      t = (board.answer .direct .empty (smallPut 5)).1 ∧
      (board.answer .direct t (smallDelete 7)).2.told?.bind (Value.member? "deleted") =
        some (.boolean true) ∧
      "a" ∉ (board.run .direct .empty [smallPut 5, smallDelete 7]).1.keys := by
  obtain ⟨board, hboard⟩ := exists_board "k" (by decide)
  obtain ⟨hput, -⟩ :=
    answer_of_smallPut hboard 5 (Store.getRecord_of_absent (rfl : Table.empty.get? "a" = none))
  obtain ⟨_, _, -, -, -, hbody⟩ := stored_of_put (asks_smallPut 5) hput
  have htells := (tells_iff [("success", .boolean true)] (by simp) hbody "a").2 rfl
  obtain ⟨hdelete, -⟩ := answer_of_delete (t := (board.answer .direct .empty (smallPut 5)).1)
    (asks_smallDelete 7) (hboard.admits_carrying "DELETE" "/state/a" [] 7)
  have hhistory : history board .empty [smallPut 5, smallDelete 7] =
      [(smallPut 5, (board.answer .direct .empty (smallPut 5)).2)] ++
        (smallDelete 7,
          (board.answer .direct (board.answer .direct .empty (smallPut 5)).1 (smallDelete 7)).2) ::
            [] := by
    rw [history_cons, history_cons]
    rfl
  obtain ⟨hkeys, hanswers⟩ := acknowledged_keys_are_stored board [smallPut 5, smallDelete 7]
  obtain ⟨deleted, htold, hiff⟩ := (hanswers _ _ _ _ "a" hhistory).1 (asks_smallDelete 7) hdelete
  have htrue : deleted = true := by
    rw [hiff, isAcknowledged_cons]
    exact .inr ⟨.put rfl hput htells, nofun⟩
  refine ⟨board, _, hboard.settings, rfl, htrue ▸ htold, fun hmem => ?_⟩
  have hacknowledged := (hkeys "a").1 hmem
  rw [hhistory, List.singleton_append, isAcknowledged_cons, isAcknowledged_cons] at hacknowledged
  rcases hacknowledged with (hnil | ⟨hlast, -⟩) | ⟨-, hkept⟩
  · exact not_isAcknowledged_nil "a" hnil
  · rcases hlast.method with h | h <;> simp [smallDelete, carrying] at h
  · exact hkept _ List.mem_cons_self ⟨asks_smallDelete 7, hdelete⟩

end RecordBoard.Board
