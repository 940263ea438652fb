import RecordBoard.Proofs.Board.Addressing
import RecordBoard.Proofs.Store.Upsert

/-!
# What a status update changes

A status update reads a record, sets its status and writes it back in its own place, so the write
stamps it against the very record that it is.  That is why it keeps the moment of its first write,
unless it said nothing about it, and why nothing but the status and the stamps can differ
afterwards.

The body is looked at before the table.  An update that asks for no status of the board is told so
whether or not there is a record, and only one that asks for one can be told that there is none.

## Main definitions

* `AsksFor` — the body of a request asks for a status of the board.
* `IsMoved` — a record is another one, moved to a status.

## Main results

* `askedStatus_eq_ok_iff` — which status a request asks for.
* `StatusBody.decode_encode` — a body that is written with a status asks for it.
* `isMoved_of_isStampOf` — what the write leaves of the record.
* `status_update_sets_one_field` — all that a status update can come to.
-/

namespace RecordBoard

/-- A status is found under its name and under no other. -/
theorem Status.ofText?_eq_some_iff {name : String} {status : Status} :
    Status.ofText? name = some status ↔ name = status.text := by
  constructor
  · intro h
    have hname := List.find?_some h
    exact (beq_iff_eq.1 hname).symm
  · rintro rfl
    exact Status.ofText?_text status

namespace Board

open Json (Value)
open Store (Backend Table)
open Http (Request Answer)

/-! ## What is asked for -/

/-- The body of the request asks for a status of the board. -/
def AsksFor (status : Status) (r : Request) : Prop := StatusBody.decode r.body = .ok status.text

theorem askedStatus_eq_ok_iff {board : Board} {r : Request}
    (hlength : r.body.length ≤ board.limits.body) {status : Status} :
    askedStatus board r = .ok status ↔ AsksFor status r := by
  unfold askedStatus bodyOf AsksFor
  rw [if_neg (Nat.not_lt.2 hlength)]
  dsimp only [bind, Except.bind]
  cases StatusBody.decode r.body with
  | error f => constructor <;> intro h <;> cases h
  | ok name =>
    have hparsed : parsed (.ok name) = .ok name := rfl
    rw [hparsed, Except.ok.injEq, ← Status.ofText?_eq_some_iff]
    dsimp only
    cases Status.ofText? name with
    | none => constructor <;> intro h <;> cases h
    | some found => simp [pure, Except.pure]

namespace StatusBody

theorem readString_encode (name : String) (rest : Bytes) :
    readString ((Value.string name).encode ++ rest) = .ok (name, rest) := by
  rw [readString, Json.head_string]
  rfl

theorem skipColon_cons (rest : Bytes) : Json.skipColon (0x3A :: rest) = .ok rest := rfl

/-- The field that counts is found if a text is written in it. -/
theorem readField_written (name : String) (rest : Bytes) :
    readField none
      (0x22 :: (Json.stringTail field ++ 0x3A :: ((Value.string name).encode ++ rest))) =
      .ok (some name, rest) := by
  rw [readField, Json.fieldName_stringTail]
  dsimp only [bind, Except.bind]
  rw [if_pos rfl, Option.isSome_none, if_neg Bool.false_ne_true, skipColon_cons]
  dsimp only
  rw [readString_encode]
  rfl

/-- A body that is written with nothing else asks for that text. -/
theorem decode_encode (name : String) :
    decode (Value.object [(field, .string name)]).encode = .ok name := by
  have hhead : Json.head (0x7B :: Json.fieldsInside [(field, .string name)]) =
      .ok (.map (Json.fieldsInside [(field, .string name)])) := rfl
  rw [decode, Json.encode_object, Json.complete_eq_ok_iff]
  refine ⟨[], ?_, rfl⟩
  rw [read, hhead]
  dsimp only [bind, Except.bind]
  rw [Json.fieldsInside, readObject, Json.skipSpace_cons rfl]
  dsimp only
  rw [if_neg (by decide), readField_written]
  rfl

end StatusBody

/-! ## What becomes of the record -/

/-- The record is `old`, moved to a status under its key. -/
structure IsMoved (status : Status) (key : String) (now : UInt64) (old new : Record) : Prop where
  /-- It has the status. -/
  status : new.get? "status" = some (.string status.text)
  /-- It names its key. -/
  key : new.get? "key" = some (.string key)
  /-- It was last written no sooner than now. -/
  updated : ∃ n : UInt64, new.get? "updated_at" = some (.ofWord n) ∧ now ≤ n
  /-- What it said about its first write it says still. -/
  created : ¬ old.LacksFirst → new.get? "created_at" = old.get? "created_at"
  /-- If it said nothing, the first write is now. -/
  began : old.LacksFirst → new.get? "created_at" = some (.ofWord now)
  /-- All other fields are as they were, and none was added. -/
  others : ∀ field, field ≠ "status" → field ∉ Record.stampedFields →
    new.get? field = old.get? field

/-- A record that is stamped against itself is moved. -/
theorem isMoved_of_isStampOf {status : Status} {key : String} {now : UInt64} {old new : Record}
    (h : Record.IsStampOf key (some old) now (old.set "status" (.string status.text)) new) :
    IsMoved status key now old new where
  status := by rw [h.others "status" (by decide), Record.get?_set, if_pos rfl]
  key := h.key
  updated := h.updated
  created hsays := by
    obtain ⟨v, hv, hfirst⟩ := h.created
    -- The record that is replaced says it, so neither the one that is brought nor the clock has a
    -- say.
    cases hfirst with
    | carried hprevious hmoment _ =>
      cases hprevious
      rw [hv, hmoment]
    | brought hprevious _ _ => exact absurd (hprevious old rfl) hsays
    | clock hprevious _ => exact absurd (hprevious old rfl) hsays
  began hlacks := by
    obtain ⟨v, hv, hfirst⟩ := h.created
    have hnothing : ∀ v, old.get? "created_at" = some v → v = .null := by
      intro v hmoment
      rcases hlacks with hlacks | hlacks <;> rw [hlacks] at hmoment <;> cases hmoment
      rfl
    cases hfirst with
    | carried hprevious hmoment hnull =>
      cases hprevious
      exact absurd (hnothing v hmoment) hnull
    | brought _ hmoment hnull =>
      rw [Record.get?_set, if_neg (by decide)] at hmoment
      exact absurd (hnothing v hmoment) hnull
    | clock _ _ => exact hv
  others field hstatus hfield := by rw [h.others field hfield, Record.get?_set, if_neg hstatus]

/-! ## What an update comes to -/

section Updates

variable {board : Board} {t : Table} {key : String} {r : Request} (hmove : AsksToMove key r)
  (hadmits : board.guard.admits r.headers = true) (hlength : r.body.length ≤ board.limits.body)

include hmove hadmits hlength

theorem answer_of_move {status : Status} (hasks : AsksFor status r) {old : Record}
    (hold : t.record? key = some old) :
    (board.answer .direct t r).2.status = 200 ∧
      ∃ new, t.WritesOnly key new (board.answer .direct t r).1 ∧
      IsMoved status key (clock r) old new := by
  have hmoves := moves_of_asksToMove (t := t) hadmits hmove
  unfold Moves at hmoves
  rw [(askedStatus_eq_ok_iff hlength).2 hasks, Table.getRecord_of_record? hold] at hmoves
  obtain ⟨hstatus, htable⟩ := hmoves
  refine ⟨hstatus, _, ?_, isMoved_of_isStampOf (Record.isStampOf_stamp key (some old) (clock r) _)⟩
  rw [htable]
  exact Table.writesOnly_insert key _ t

/-- A record without doubles that is moved is found as it was stamped. -/
theorem found_of_move {status : Status} (hasks : AsksFor status r) {p : Record}
    (hwhole : p.toValue.IsWhole) (hfound : Backend.direct.getRecord t key = .ok (some p)) :
    Backend.direct.getRecord (board.answer .direct t r).1 key =
      .ok (some ((p.set "status" (.string status.text)).stamp key (some p) (clock r))) := by
  have hmoves := moves_of_asksToMove (t := t) hadmits hmove
  unfold Moves at hmoves
  rw [(askedStatus_eq_ok_iff hlength).2 hasks, hfound] at hmoves
  obtain ⟨_, -, hdecode⟩ := Store.exists_value_of_getRecord hfound
  have hwithin :
    ((p.set "status" (.string status.text)).stamp key (some p) (clock r)).toValue.Within
      Json.maxDepth := by
    have hp := Record.within_of_decode hdecode
    refine Record.within_stamp key _ ?_ fun q hq => Option.some.inj hq ▸ hp
    exact Record.within_set "status" hp (Record.within_string _ _)
  refine Store.getRecord_of_decode ?_ (Record.decode_of_isWhole ?_ hwithin)
  · rw [hmoves.2, Table.get?_insert, if_pos rfl]
  · refine Record.isWhole_stamp key (Record.isWhole_set "status" hwhole trivial) fun v hv => ?_
    exact Value.isWhole_of_get? hwhole (Record.present?_eq_some_iff.1 hv).1

theorem answer_of_unasked (hasks : ¬ ∃ status, AsksFor status r) :
    (board.answer .direct t r).2.status = 500 ∧ (board.answer .direct t r).1 = t := by
  have hmoves := moves_of_asksToMove (t := t) hadmits hmove
  cases hasked : askedStatus board r with
  | ok status => exact absurd ⟨status, (askedStatus_eq_ok_iff hlength).1 hasked⟩ hasks
  | error h =>
    unfold Moves at hmoves
    rw [hasked] at hmoves
    exact hmoves

variable {status : Status} (hasks : AsksFor status r)

include hasks

theorem answer_of_absent (habsent : t.get? key = none) :
    (board.answer .direct t r).2.status = 404 ∧ (board.answer .direct t r).1 = t := by
  have hmoves := moves_of_asksToMove (t := t) hadmits hmove
  unfold Moves at hmoves
  rw [(askedStatus_eq_ok_iff hlength).2 hasks, Store.getRecord_of_absent habsent] at hmoves
  exact hmoves

theorem answer_of_unreadable (hplace : t.IsUnreadableAt key) :
    (board.answer .direct t r).2.status = 500 ∧ (board.answer .direct t r).1 = t := by
  have hmoves := moves_of_asksToMove (t := t) hadmits hmove
  obtain ⟨f, hf⟩ := Table.exists_fault_of_unreadable hplace
  unfold Moves at hmoves
  rw [(askedStatus_eq_ok_iff hlength).2 hasks, hf] at hmoves
  exact hmoves

omit hasks in
/-- An update without a status of the board or without a record fails and leaves the table. -/
theorem answer_of_not_moved
    (hnot : ¬ ((∃ status, AsksFor status r) ∧ ∃ old, t.record? key = some old)) :
    (board.answer .direct t r).2.status ≠ 200 ∧ (board.answer .direct t r).1 = t := by
  by_cases hasks : ∃ status, AsksFor status r
  · obtain ⟨status, hstatus⟩ := hasks
    rcases Table.absent_or_unreadable fun old hold =>
      hnot ⟨⟨status, hstatus⟩, old, hold⟩ with hplace | hplace
    · obtain ⟨h404, htable⟩ := answer_of_absent hmove hadmits hlength hstatus hplace
      exact ⟨by simp [h404], htable⟩
    · obtain ⟨h500, htable⟩ := answer_of_unreadable hmove hadmits hlength hstatus hplace
      exact ⟨by simp [h500], htable⟩
  · obtain ⟨h500, htable⟩ := answer_of_unasked (t := t) hmove hadmits hlength hasks
    exact ⟨by simp [h500], htable⟩

end Updates

/--
**A status update sets one field.**  Let the guard let a status update through whose body is not too
long.

* It is answered with 200 if and only if its body asks for a status of the board and there is a
  record under the key.  Then the table differs from the one before only in that record, which has
  the status, and its stamps; the moment of its first write is kept if there was one.
* Without such a body it is answered with 500, whether or not there is a record.  With one it is
  answered with 404 if there is nothing under the key, and with 500 if there is a value that is no
  record.
* An update that is not answered with 200 leaves the table as it was.
-/
theorem status_update_sets_one_field (board : Board) (t : Table) {key : String} {r : Request}
    (hmove : AsksToMove key r) (hadmits : board.guard.admits r.headers = true)
    (hlength : r.body.length ≤ board.limits.body) :
    ((board.answer .direct t r).2.status = 200 ↔
      (∃ status, AsksFor status r) ∧ ∃ old, t.record? key = some old) ∧
    (∀ status old, AsksFor status r → t.record? key = some old →
      ∃ new, t.WritesOnly key new (board.answer .direct t r).1 ∧
      IsMoved status key (clock r) old new) ∧
    ((¬ ∃ status, AsksFor status r) → (board.answer .direct t r).2.status = 500) ∧
    (∀ status, AsksFor status r →
      (t.get? key = none → (board.answer .direct t r).2.status = 404) ∧
      (t.IsUnreadableAt key → (board.answer .direct t r).2.status = 500)) ∧
    ((board.answer .direct t r).2.status ≠ 200 → (board.answer .direct t r).1 = t) := by
  have hmoved {status : Status} {old : Record} (hasks : AsksFor status r)
      (hold : t.record? key = some old) :=
    answer_of_move hmove hadmits hlength hasks hold
  have hother := answer_of_not_moved (t := t) hmove hadmits hlength
  refine ⟨⟨fun h200 => ?_, ?_⟩, ?_, ?_, ?_, fun hstatus => ?_⟩
  · apply Classical.byContradiction
    intro hnot
    exact (hother hnot).1 h200
  · rintro ⟨⟨status, hasks⟩, old, hold⟩
    exact (hmoved hasks hold).1
  · intro status old hasks hold
    exact (hmoved hasks hold).2
  · intro hunasked
    exact (answer_of_unasked hmove hadmits hlength hunasked).1
  · intro status hasks
    constructor
    · intro hplace
      exact (answer_of_absent hmove hadmits hlength hasks hplace).1
    · intro hplace
      exact (answer_of_unreadable hmove hadmits hlength hasks hplace).1
  · apply (hother _).2
    rintro ⟨⟨status, hasks⟩, old, hold⟩
    exact hstatus (hmoved hasks hold).1

/-- A request to move the record under the key `a`, with the secret `k`. -/
def smallMove (now : Int) : Request :=
  carrying "k" "PUT" "/state/a/status"
    (Value.object [(StatusBody.field, .string Status.done.text)]).encode now

theorem asksToMove_smallMove (now : Int) : AsksToMove "a" (smallMove now) :=
  ⟨rfl, "a", (by decide : Resource.ofTarget (Http.Target.ofText "/state/a/status") = _), rfl⟩

theorem asksFor_smallMove (now : Int) : AsksFor .done (smallMove now) :=
  StatusBody.decode_encode Status.done.text

theorem IsDefault.length_smallMove {board : Board} (hboard : board.IsDefault "k") (now : Int) :
    (smallMove now).body.length ≤ board.limits.body := by
  rw [hboard.limits]
  exact (by
    decide : (Value.object [(StatusBody.field, .string Status.done.text)]).encode.length ≤ 33554432)

/-- A record with fields and moments of its own is moved, and where there is none there is nothing
to move. -/
theorem visit_is_moved :
    ∃ (board : Board) (t : Table) (new : Record),
      Board.ofSettings { ({} : Settings) with apiKey := some "k" } = .ok board ∧
      t = (board.answer .direct .empty (putOf visit 5)).1 ∧
      (board.answer .direct t (smallMove 9)).2.status = 200 ∧
      (board.answer .direct t (smallMove 9)).1.get? "a" = some new.encode ∧
      new.get? "status" = some (.string "done") ∧ new.get? "created_at" = visit.get? "created_at" ∧
      (∀ field ∈ ["bounds", "note", "parts"], new.get? field = visit.get? field) ∧
      (board.answer .direct .empty (smallMove 9)).2.status = 404 := by
  obtain ⟨board, hboard⟩ := exists_board "k" (by decide)
  obtain ⟨-, hplace⟩ := found_of_putOf hboard within_visit isWhole_visit length_visit 5
    (rfl : Backend.direct.getRecord Table.empty "a" = .ok none) nofun
  have hold := Table.record?_of_getRecord hplace
  obtain ⟨hfine, hmoved, -⟩ := status_update_sets_one_field board _ (asksToMove_smallMove 9)
    (hboard.admits_carrying _ _ _ _) (hboard.length_smallMove 9)
  obtain ⟨-, -, -, hmissing, -⟩ :=
    status_update_sets_one_field board .empty (asksToMove_smallMove 9)
    (hboard.admits_carrying _ _ _ _) (hboard.length_smallMove 9)
  obtain ⟨new, honly, hnew⟩ := hmoved .done _ (asksFor_smallMove 9) hold
  have hsays : ¬ (visit.stamp "a" none (clockSeconds 5)).LacksFirst := by
    rintro (hlacks | hlacks) <;> cases hlacks
  have hstatus := hfine.2 ⟨⟨.done, asksFor_smallMove 9⟩, _, hold⟩
  have habsent := (hmissing .done (asksFor_smallMove 9)).1 rfl
  refine ⟨board, _, new, hboard.settings, rfl, hstatus, honly.here, hnew.status,
    hnew.created hsays, ?_, habsent⟩
  intro field hfield
  have hkept := hnew.others field
  simp only [List.mem_cons, List.not_mem_nil, or_false] at hfield
  rcases hfield with rfl | rfl | rfl <;> exact hkept (by decide) (by decide)

end Board

end RecordBoard
