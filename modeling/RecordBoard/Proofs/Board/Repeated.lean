import RecordBoard.Proofs.Board.Moved
import RecordBoard.Proofs.Board.ReadBack
import RecordBoard.Proofs.Board.Updated
import RecordBoard.Proofs.Store.Again

/-!
# Requests that are repeated

A client that does not know whether its request was carried out sends it again.  The second time it
finds what the first left: its own record, under the same key, stamped at an earlier clock or a
later one.  It writes the same record again, and only the moment of the last write may move on.

A request brings the same drafts both times.  The body and the random octets are the same, so a
record that is put, made or synced is the same; a delivery makes a draft of its payload, in which
only the clock differs, where it does not count; and a status update finds the record that it has
moved already, and moves it to where it is.  What a batch of drafts does that is written again is
known from the store, and a request is such a batch.

## Main definitions

* `IsRepeatable` — no double has a part in what a request hands on.

## Main results

* `sameDrafts_again` — a request that is repeated brings the same drafts, but for their stamps.
* `repeated_write_moves_on` — so it changes only moments of the last write.
-/

namespace RecordBoard

open Json (Value)

-- Powers are those of the core library, whatever else an importing module knows.
attribute [local instance (2000)] instPowNat

namespace Record

/-- The least moment of a write is one that doubles hold if the one in place is. -/
theorem toNat_floor_le {previous : Option Record}
    (h : ∀ p d, previous = some p → p.updatedAt? = some d → d.ceil ≤ 2 ^ (53 : Nat)) :
    (floor previous).toNat ≤ 2 ^ (53 : Nat) := by
  unfold floor
  split
  next moment hmoment =>
    obtain ⟨p, hp, hd⟩ := Option.bind_eq_some_iff.1 hmoment
    have hle := h p moment hp hd
    rw [UInt64.toNat_ofNatClamp_of_lt (Nat.lt_of_le_of_lt hle (by decide))]
    exact hle
  next => exact Nat.zero_le _

end Record

namespace Board

open Store (Backend Table Step session batch SameDraft HandsOn StoresUnder MovedOn ReadableInFront)
open Http (Request Answer)

/-- No double has a part in what a request hands on, whatever it brings and finds. -/
structure IsRepeatable (board : Board) (t : Table) (r : Request) : Prop where
  /-- There is none in the moments of the first write that it brings, -/
  brought : ∀ draft ∈ drafts board t r, ∀ v, draft.2.get? "created_at" = some v → v.IsWhole
  /-- nor in those that it finds in place. -/
  found : ∀ draft ∈ drafts board t r, ∀ p v, Backend.direct.getRecord t draft.1 = .ok (some p) →
    p.get? "created_at" = some v → v.IsWhole
  /-- The moments of the last write that it finds are numbers that doubles hold. -/
  moment : ∀ draft ∈ drafts board t r, ∀ p d, Backend.direct.getRecord t draft.1 = .ok (some p) →
    p.updatedAt? = some d → d.ceil ≤ 2 ^ (53 : Nat)
  /-- A record that it moves is without doubles altogether. -/
  moved : ∀ segment, Resource.ofTarget r.target = .status segment → ∀ draft ∈ drafts board t r, ∀ p,
    Backend.direct.getRecord t draft.1 = .ok (some p) → p.toValue.IsWhole

/-! ## What drafts hand on -/

section Drafts

variable {board : Board} {t : Table} {r : Request} {draft : String × Record}

theorem isOrdered_of_mem_drafts (h : draft ∈ drafts board t r) : draft.2.toValue.IsOrdered :=
  isOrdered_of_brings (brings_of_mem_drafts h)

/-- A draft can be read once it is written, if it is not made of a delivery. -/
theorem within_of_mem_drafts (hresource : Resource.ofTarget r.target ≠ .deliveries)
    (h : draft ∈ drafts board t r) :
    draft.2.toValue.Within Json.maxDepth := by
  refine within_of_brings (by decide) (fun heq => ?_) (brings_of_mem_drafts h)
  exact absurd heq hresource

/-- A delivery makes at most one draft. -/
theorem drafts_of_delivery (board : Board) (t : Table)
    (hresource : Resource.ofTarget r.target = .deliveries) :
    drafts board t r = [] ∨
      ∃ d, deliveryDraft board r = .ok (some d) ∧ drafts board t r = [(d.key, d.record)] := by
  unfold drafts
  rw [hresource]
  cases Verb.ofMethod r.method
  case post =>
    dsimp only
    rcases deliveryDraft board r with e | _ | d
    · exact .inl rfl
    · exact .inl rfl
    · exact .inr ⟨d, rfl, rfl⟩
  all_goals exact .inl rfl

/-- So every draft with another one behind it can be read once it is written. -/
theorem readableInFront_drafts (board : Board) (t : Table) (r : Request) :
    ReadableInFront (drafts board t r) := by
  by_cases hresource : Resource.ofTarget r.target = .deliveries
  · rcases drafts_of_delivery board t hresource with hnone | ⟨d, -, hone⟩
    · rw [hnone]
      exact .nil
    · rw [hone]
      exact List.pairwise_singleton _ _
  · exact List.Pairwise.imp_of_mem (fun hmem _ _ => within_of_mem_drafts hresource hmem)
      (List.pairwise_of_forall fun _ _ => trivial)

/-- A moment of the first write that is brought can be read once it is written. -/
theorem within_of_created (h : draft ∈ drafts board t r) {v : Value}
    (hv : draft.2.get? "created_at" = some v) :
    v.Within (Json.maxDepth - 1) := by
  by_cases hresource : Resource.ofTarget r.target = .deliveries
  · rcases drafts_of_delivery board t hresource with hnone | ⟨d, hd, hone⟩
    · rw [hnone] at h
      cases h
    · rw [hone, List.mem_singleton] at h
      obtain ⟨-, -, payload, -, hnormalize⟩ := exists_payload_of_deliveryDraft hd
      obtain ⟨rule, -, subject, identifier, -, rfl⟩ := Delivery.exists_of_normalize hnormalize
      rw [h, Delivery.get?_created] at hv
      cases hv
  · exact Value.Within.member? (within_of_mem_drafts hresource h) hv

/-- What a draft hands on, with the record in its place. -/
theorem handsOn_of_isRepeatable (hr : IsRepeatable board t r) (hclock : r.now ≤ 2 ^ (53 : Nat))
    (h : draft ∈ drafts board t r) {previous : Option Record}
    (hprevious : Backend.direct.getRecord t draft.1 = .ok previous) :
    HandsOn previous (clock r) draft.2 := by
  have hfirst : (Record.firstWritten previous (clock r) draft.2).Within (Json.maxDepth - 1) ∧
      (Record.firstWritten previous (clock r) draft.2).IsWhole := by
    rcases Record.firstWritten_cases previous
      (clock r) draft.2 with ⟨p, rfl, hpresent⟩ | hpresent | hnow
    · obtain ⟨_, -, hdecode⟩ := Store.exists_value_of_getRecord hprevious
      have hcreated := (Record.present?_eq_some_iff.1 hpresent).1
      exact ⟨Value.Within.member? (Record.within_of_decode hdecode) hcreated,
        hr.found draft h p _ hprevious hcreated⟩
    · have hcreated := (Record.present?_eq_some_iff.1 hpresent).1
      exact ⟨within_of_created h hcreated, hr.brought draft h _ hcreated⟩
    · rw [hnow]
      exact ⟨Record.within_ofWord _ _, trivial⟩
  have hfloor : (Record.floor previous).toNat ≤ 2 ^ (53 : Nat) := by
    refine Record.toNat_floor_le fun p d hp hd => ?_
    exact hr.moment draft h p d (hp ▸ hprevious) hd
  exact ⟨hfirst.1, Value.reread_of_isWhole _ hfirst.2,
    Store.toNat_max_le (toNat_clock_le hclock) hfloor⟩

end Drafts

/-! ## The same drafts -/

section Again

variable {board : Board} {t : Table} {r : Request}

theorem sameDraft_refl (draft : String × Record) : SameDraft draft draft :=
  ⟨rfl, fun _ _ _ _ => rfl⟩

/-- A delivery that is repeated makes the same draft of its payload. -/
theorem exists_deliveryDraft_again {d : Delivery.Draft} (h : deliveryDraft board r = .ok (some d))
    (now' : Int) :
    ∃ d', deliveryDraft board { r with now := now' } = .ok (some d') ∧
      SameDraft (d.key, d.record) (d'.key, d'.record) := by
  obtain ⟨hbody, hrule, payload, hpayload, hnormalize⟩ := exists_payload_of_deliveryDraft h
  obtain ⟨d', hnormalize', hkey, hsame⟩ :=
    Delivery.exists_normalize_of_clock hnormalize (clock { r with now := now' })
  refine ⟨d', ?_, hkey.symm, fun field hupdated _ _ => hsame field hupdated⟩
  have hbody' : bodyOf board { r with now := now' } = .ok r.body := hbody
  unfold deliveryDraft
  rw [hbody']
  simp only [bind, Except.bind, hrule, hpayload, parsed, Except.mapError, hnormalize']
  rfl

/-- If it made none, it makes none. -/
theorem sameDraft_deliveries (board : Board) (r : Request) (now' : Int) :
    List.Forall₂ SameDraft
      (((deliveryDraft board r).toOption.bind id).toList.map fun draft => (draft.key, draft.record))
      (((deliveryDraft board { r with now := now' }).toOption.bind id).toList.map fun draft =>
        (draft.key, draft.record)) := by
  have hok : ∀ {result : Except Halt (Option Delivery.Draft)} {d : Delivery.Draft},
      result.toOption.bind id = some d → result = .ok (some d) := by
    intro result d h
    rcases result with e | found
    · cases h
    · exact congrArg Except.ok h
  cases h : (deliveryDraft board r).toOption.bind id with
  | some d =>
    obtain ⟨d', hd', hsame⟩ := exists_deliveryDraft_again (hok h) now'
    rw [hd']
    exact .cons hsame .nil
  | none =>
    cases h' : (deliveryDraft board { r with now := now' }).toOption.bind id with
    | none => exact .nil
    | some d' =>
      obtain ⟨d, hd, -⟩ := exists_deliveryDraft_again (hok h') r.now
      have hsome : deliveryDraft board r = .ok (some d) := hd
      rw [hsome] at h
      cases h

/-- What a status update brings: the record under its key, if there is one and the status is one. -/
theorem map_moveDraft (board : Board) (t : Table) (segment : String) (r : Request) :
    (moveDraft board t segment r).toOption.toList.map (·.2) =
      match keyOf segment, askedStatus board r with
      | .ok key, .ok status =>
        match Backend.direct.getRecord t key with
        | .ok (some record) => [(key, record.set "status" (.string status.text))]
        | _ => []
      | _, _ => [] := by
  unfold moveDraft askedStatus
  simp only [bind, Except.bind]
  cases keyOf segment with
  | error h => rfl
  | ok key =>
    cases bodyOf board r with
    | error h => rfl
    | ok body =>
      dsimp only
      cases parsed (StatusBody.decode body) with
      | error h => rfl
      | ok name =>
        dsimp only
        cases Status.ofText? name with
        | none => rfl
        | some status =>
          simp only [pure, Except.pure]
          rcases Backend.direct.getRecord t key with e | _ | record <;> rfl

/-- A record that was moved is moved to where it is. -/
theorem sameDraft_moved {key : String} {p : Record} (hp : p.toValue.IsWhole)
    (hwithin : p.toValue.Within Json.maxDepth)
    (hfound : Backend.direct.getRecord t key = .ok (some p)) (status : Status)
    (now : UInt64) {new : Table} (hnew : new =
      (session .direct t (batch now [(key, p.set "status" (.string status.text))])).1) :
    ∃ stored, Backend.direct.getRecord new key = .ok (some stored) ∧
      SameDraft (key, p.set "status" (.string status.text))
        (key, stored.set "status" (.string status.text)) := by
  have hmoved : (p.set "status" (.string status.text)).toValue.IsWhole :=
    Record.isWhole_set "status" hp trivial
  have hstored :
      ((p.set "status" (.string status.text)).stamp key (some p) now).toValue.IsWhole :=
    Record.isWhole_stamp key hmoved fun v hv =>
      Value.isWhole_of_get? hp (Record.present?_eq_some_iff.1 hv).1
  have hreadable : ((p.set "status" (.string status.text)).stamp key (some p) now).toValue.Within
      Json.maxDepth := by
    refine Record.within_stamp key now ?_ fun q hq => Option.some.inj hq ▸ hwithin
    exact Record.within_set "status" hwithin (Record.within_string _ _)
  have hvalue : new.get? key =
      some ((p.set "status" (.string status.text)).stamp key (some p) now).encode :=
    hnew ▸ Store.perform_inPlace now hfound _
  have hread := Store.getRecord_of_decode hvalue (Record.decode_encode hreadable)
  rw [Record.reread_of_isWhole hstored] at hread
  refine ⟨_, hread, rfl, fun field hupdated hcreated hkey => ?_⟩
  simp only [Record.get?_set, Record.get?_stamp, if_neg hupdated, if_neg hcreated, if_neg hkey]
  split <;> rfl

/-- So a status update that is repeated brings the same record. -/
theorem sameDraft_moves {segment : String}
    (hwhole : ∀ draft ∈ (moveDraft board t segment r).toOption.toList.map (·.2),
      ∀ p, Backend.direct.getRecord t draft.1 = .ok (some p) → p.toValue.IsWhole)
        (now' : Int) {new : Table}
    (hnew : new = (session .direct t
      (batch (clock r) ((moveDraft board t segment r).toOption.toList.map (·.2)))).1) :
    List.Forall₂ SameDraft ((moveDraft board t segment r).toOption.toList.map (·.2))
      ((moveDraft board new segment { r with now := now' }).toOption.toList.map (·.2)) := by
  have hasked : askedStatus board { r with now := now' } = askedStatus board r := rfl
  rw [map_moveDraft] at hwhole hnew
  rw [map_moveDraft, map_moveDraft, hasked]
  cases hkey : keyOf segment with
  | error h => exact .nil
  | ok key =>
    cases hstatus : askedStatus board r with
    | error h => exact .nil
    | ok status =>
      rw [hkey, hstatus] at hwhole hnew
      dsimp only at hwhole hnew ⊢
      rcases hfound : Backend.direct.getRecord t key with e | _ | p
      · rw [hfound] at hnew
        obtain rfl : new = t := hnew
        rw [hfound]
        exact .nil
      · rw [hfound] at hnew
        obtain rfl : new = t := hnew
        rw [hfound]
        exact .nil
      · rw [hfound] at hwhole hnew
        obtain ⟨_, -, hdecode⟩ := Store.exists_value_of_getRecord hfound
        obtain ⟨stored, hstored, hsame⟩ := sameDraft_moved (hwhole _ List.mem_cons_self p hfound)
          (Record.within_of_decode hdecode) hfound status (clock r) hnew
        rw [hstored]
        exact .cons hsame .nil

/-- A request that is repeated brings the same drafts, but for their stamps. -/
theorem sameDrafts_again (hr : IsRepeatable board t r) (now' : Int) {new : Table}
    (hnew : new = (session .direct t (batch (clock r) (drafts board t r))).1) :
    List.Forall₂ SameDraft (drafts board t r) (drafts board new { r with now := now' }) := by
  have hmoved := hr.moved
  unfold drafts at hmoved hnew ⊢
  dsimp only
  cases hresource : Resource.ofTarget r.target <;> cases hverb : Verb.ofMethod r.method
  case status.put segment =>
    simp only [hresource, hverb] at hmoved hnew
    exact sameDraft_moves (hmoved segment rfl) now' hnew
  case deliveries.post => exact sameDraft_deliveries board r now'
  case records.post | record.put | sync.post =>
    exact List.forall₂_same.2 fun draft _ => sameDraft_refl draft
  all_goals exact .nil

/-! ## Requests -/

/-- A request that puts or makes something writes a batch of drafts, unless the guard turns it
away. -/
theorem writes_eq_batch (board : Board) (t : Table) (h : r.method ∈ ["PUT", "POST"]) :
    writes board t r =
      if (Resource.ofTarget r.target).isGuarded && !board.guard.admits r.headers then []
      else batch (clock r) (drafts board t r) := by
  have hdeletions : deletions r = [] := by
    have hverb : Verb.ofMethod r.method ≠ .delete := by
      simp only [List.mem_cons, List.not_mem_nil, or_false] at h
      rcases h with h | h <;> rw [h] <;> decide
    unfold deletions
    split
    next hdelete => exact absurd hdelete hverb
    next => rfl
  unfold writes batch
  rw [hdeletions, List.map_nil, List.append_nil]

/--
**A write that is repeated moves on.**  Take any request that puts a record, makes one, moves one to
a status, brings a sync or delivers an event, on any table.  No moment of the first write that it
brings, or that is in a record in place of which it writes, holds a double; a record that it moves
holds none at all. The moments of the last write in the records in place, and the two clock
readings, are no larger than `2 ^ 53`.  If the request is carried out at the one clock reading and
then, with the same random octets, at the other, the second time changes no more than this: the
moment of the last write of each record that it stores is the later of the one before and the clock.
If the clock has not gone on, nothing changes at all.
-/
theorem repeated_write_moves_on (board : Board) (t : Table) {r again : Request}
    (hmethod : r.method ∈ ["PUT", "POST"]) (hr : IsRepeatable board t r) {now' : Int}
    (hagain : again = { r with now := now' }) (hclock : r.now ≤ 2 ^ (53 : Nat))
    (hclock' : now' ≤ 2 ^ (53 : Nat)) {new last : Table} (hnew : new = (board.answer .direct t r).1)
    (hlast : last = (board.answer .direct new again).1) :
    (∀ key, StoresUnder key new (writes board new again) → ∃ (stored : Record) (n : UInt64),
      new.get? key = some stored.encode ∧ stored.get? "updated_at" = some (.ofWord n) ∧
      last.get? key = some (stored.set "updated_at" (.ofWord (max (clock again) n))).encode) ∧
    (∀ key, ¬ StoresUnder key new (writes board new again) → last.get? key = new.get? key) ∧
    (now' ≤ r.now → last = new) := by
  subst hagain
  rw [answer_eq_session, writes_eq_batch board t hmethod] at hnew
  rw [answer_eq_session, writes_eq_batch board new (r := { r with now := now' }) hmethod] at hlast
  rw [writes_eq_batch board new (r := { r with now := now' }) hmethod]
  dsimp only at hlast ⊢
  by_cases hrefused : ((Resource.ofTarget r.target).isGuarded && !board.guard.admits r.headers) =
    true
  · rw [if_pos hrefused] at hlast ⊢
    exact ⟨fun key h => (nomatch h), fun key _ => congrArg (Table.get? key) hlast, fun _ => hlast⟩
  · rw [if_neg hrefused] at hnew hlast ⊢
    obtain ⟨hmoved, hsame⟩ := Store.movedOn_batch_again
      (fun draft hdraft previous => handsOn_of_isRepeatable hr hclock hdraft)
      (toNat_clock_le (r := { r with now := now' }) hclock') (sameDrafts_again hr now' hnew)
      (readableInFront_drafts board t r) (readableInFront_drafts board new { r with now := now' })
      (fun draft hdraft => isOrdered_of_mem_drafts hdraft)
      (fun draft hdraft => isOrdered_of_mem_drafts hdraft) hnew
    rw [← hlast] at hmoved hsame
    refine ⟨hmoved.moved, hmoved.kept, fun hle => hsame ?_⟩
    rw [UInt64.le_iff_toNat_le, toNat_clock hclock,
      toNat_clock (r := { r with now := now' }) hclock']
    exact Int.toNat_le_toNat hle

end Again

/-! ## A single draft -/

section Single

variable {board : Board} {t : Table} {r : Request} {key : String} {record p : Record}

/-- A request that moves a record brings it with the status. -/
theorem drafts_of_move {status : Status} (hmove : AsksToMove key r)
    (hlength : r.body.length ≤ board.limits.body) (hasks : AsksFor status r)
    (hfound : Backend.direct.getRecord t key = .ok (some p)) :
    drafts board t r = [(key, p.set "status" (.string status.text))] := by
  obtain ⟨hmethod, segment, hresource, hkey⟩ := hmove
  unfold drafts
  rw [hresource, hmethod]
  show (moveDraft board t segment r).toOption.toList.map (·.2) = _
  rw [map_moveDraft, hkey, (askedStatus_eq_ok_iff hlength).2 hasks]
  dsimp only
  rw [hfound]

/-- A request is repeatable that brings one record without doubles in the place of another. -/
theorem isRepeatable_of_single (hdrafts : drafts board t r = [(key, record)])
    (hfound : Backend.direct.getRecord t key = .ok (some p)) (hrecord : record.toValue.IsWhole)
    (hwhole : p.toValue.IsWhole) {n : UInt64} (hmoment : p.get? "updated_at" = some (.ofWord n))
    (hn : n.toNat ≤ 2 ^ (53 : Nat)) : IsRepeatable board t r := by
  have hplace : ∀ q, Backend.direct.getRecord t key = .ok (some q) → q = p := by
    intro q hq
    rw [hfound] at hq
    cases hq
    rfl
  refine ⟨?_, ?_, ?_, fun segment _ => ?_⟩ <;> rw [hdrafts] <;> intro draft hdraft <;>
    obtain rfl := List.mem_singleton.1 hdraft
  · exact fun v hv => Value.isWhole_of_get? hrecord hv
  · rintro q v hq hv
    exact Value.isWhole_of_get? hwhole (hplace q hq ▸ hv)
  · rintro q d hq hd
    obtain ⟨d', hd', hceil, -⟩ := Record.updatedAt_of_word hmoment hn
    rw [hplace q hq, hd'] at hd
    cases hd
    exact hceil ▸ hn
  · exact fun q hq => hplace q hq ▸ hwhole

/-- It stores the record if the guard lets it through. -/
theorem storesUnder_of_single (hmethod : r.method ∈ ["PUT", "POST"])
    (hadmits : board.guard.admits r.headers = true) (hdrafts : drafts board t r = [(key, record)])
    (hfound : Backend.direct.getRecord t key = .ok (some p)) :
    StoresUnder key t (writes board t r) := by
  rw [writes_eq_batch board t hmethod, if_neg (by simp [hadmits]), hdrafts]
  rcases Store.perform_upsert t key record (clock r) with ⟨_, -, hperform⟩ | ⟨e, he, -⟩
  · exact .here (congrArg Prod.snd hperform)
  · rw [hfound] at he
    cases he

end Single

/-- A record with moments of its own is moved, and moved again at a later clock. -/
theorem move_moves_on :
    ∃ (board : Board) (t new last : Table) (stored : Record) (n : UInt64),
      Board.ofSettings { ({} : Settings) with apiKey := some "k" } = .ok board ∧
      t = (board.answer .direct .empty (putOf visit 5)).1 ∧
      new = (board.answer .direct t (smallMove 9)).1 ∧
      last = (board.answer .direct new (smallMove 12)).1 ∧
      new.get? "a" = some stored.encode ∧ stored.get? "updated_at" = some (.ofWord n) ∧
      last.get? "a" = some (stored.set "updated_at" (.ofWord (max 12 n))).encode := by
  obtain ⟨board, hboard⟩ := exists_board "k" (by decide)
  obtain ⟨-, hplace⟩ := found_of_putOf hboard within_visit isWhole_visit length_visit 5
    (rfl : Backend.direct.getRecord Table.empty "a" = .ok none) nofun
  have hwhole : (visit.stamp "a" none (clockSeconds 5)).toValue.IsWhole :=
    Record.isWhole_stamp "a" isWhole_visit nofun
  have hdrafts {t : Table} {p : Record} (now : Int)
    (hfound : Backend.direct.getRecord t "a" = .ok (some p)) :
      drafts board t (smallMove now) = [("a", p.set "status" (.string Status.done.text))] :=
    drafts_of_move (asksToMove_smallMove now) (hboard.length_smallMove now)
      (asksFor_smallMove now) hfound
  have hadmits (now : Int) : board.guard.admits (smallMove now).headers = true :=
    hboard.admits_carrying _ _ _ _
  have hrepeatable := isRepeatable_of_single (hdrafts 9 hplace) hplace
    (Record.isWhole_set "status" hwhole trivial) hwhole (Record.get?_stamp_updated _ _ _ _)
    (by decide)
  obtain ⟨hmoved, -, -⟩ :=
    repeated_write_moves_on board _ (by decide : (smallMove 9).method ∈ _) hrepeatable
    (rfl : smallMove 12 = { smallMove 9 with now := 12 }) (by decide) (by decide) rfl rfl
  have hnext := found_of_move (asksToMove_smallMove 9) (hadmits 9) (hboard.length_smallMove 9)
    (asksFor_smallMove 9) hwhole hplace
  obtain ⟨stored, n, hfound, hsaid, hlast⟩ := hmoved "a"
    (storesUnder_of_single (by decide : (smallMove 12).method ∈ _) (hadmits 12)
      (hdrafts 12 hnext) hnext)
  exact ⟨board, _, _, _, stored, n, hboard.settings, rfl, rfl, rfl, hfound, hsaid, hlast⟩

end Board

end RecordBoard
