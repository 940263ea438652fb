import RecordBoard.Proofs.Board.Put
import RecordBoard.Proofs.Store.Moments

/-!
# The moment of the last write

With clocks up to `2 ^ 53` the moments of the last write are well behaved, however the clock moves
in that range: under a key they do not go back from one write to the next until the key is deleted,
and no write is dated before its clock.  Both are facts about sessions, and the journal of a run is
one.

Two requests tell the moment in their answer, one that puts a record and one that moves it.  What
they tell has gone through a double, and it is the moment in the record that they stored.

## Main results

* `isTimely_of_mem_journal` — the steps of a run are those of a session with such clocks.
* `told_updated` — what an answer tells about the moment of a record that was stored.
* `last_moment_never_goes_back` — moments along a run.
-/

namespace RecordBoard.Board

open Json (Value)
open Store (Backend Table Step Stores HasMoment session)
open Http (Request Answer)

-- Powers are those of the core library, whatever else an importing module knows.
attribute [local instance (2000)] instPowNat

/-! ## Clocks -/

theorem toNat_clock {r : Request} (h : r.now ≤ 2 ^ (53 : Nat)) : (clock r).toNat = r.now.toNat := by
  have hsmall : (2 : Int) ^ (53 : Nat) = 9007199254740992 := by decide
  rw [hsmall] at h
  refine UInt64.toNat_ofNatClamp_of_lt ?_
  rw [show UInt64.size = 18446744073709551616 from rfl]
  omega

theorem toNat_clock_le {r : Request} (h : r.now ≤ 2 ^ (53 : Nat)) :
    (clock r).toNat ≤ 2 ^ (53 : Nat) := by
  have hsmall : (2 : Int) ^ (53 : Nat) = 9007199254740992 := by decide
  rw [toNat_clock h, show (2 : Nat) ^ (53 : Nat) = 9007199254740992 by decide]
  rw [hsmall] at h
  omega

/-- The steps of a request write records in order at its clock, or they delete. -/
theorem isTimely_of_mem_writes {board : Board} {t : Table} {r : Request}
    (hclock : r.now ≤ 2 ^ (53 : Nat)) {step : Step} (h : step ∈ writes board t r) :
    step.IsTimely := by
  rcases brings_of_mem_writes h with ⟨key, record, rfl, hbrings⟩ | ⟨key, rfl, -⟩
  · exact .upsert key (isOrdered_of_brings hbrings) (toNat_clock_le hclock)
  · exact .delete key

/-- So do those of a run. -/
theorem isTimely_of_mem_journal {board : Board} {t : Table} {rs : List Request}
    (hclock : ∀ r ∈ rs, r.now ≤ 2 ^ (53 : Nat)) {step : Step} (h : step ∈ journal board t rs) :
    step.IsTimely := by
  induction rs generalizing t with
  | nil => cases h
  | cons r rest ih =>
    rcases List.mem_append.1 h with h | h
    · exact isTimely_of_mem_writes (hclock r List.mem_cons_self) h
    · exact ih (fun r' hr' => hclock r' (List.mem_cons_of_mem r hr')) h

/-! ## What answers tell -/

theorem lastWritten_of_hasMoment {n : UInt64} {r : Record} (h : HasMoment n r) :
    lastWritten r = n := by
  obtain ⟨d, hd, -, hfloor⟩ := Record.updatedAt_of_word h.said h.exact_le
  rw [lastWritten, hd, Option.map_some, hfloor, Option.getD_some]
  simp

/-- What an answer tells about the moment of a record that was stored. -/
theorem told_updated (fields : List (String × Value)) {a : Answer} {n : UInt64} {stored : Record}
    (hstored : HasMoment n stored)
    (hbody : a.body =
      (Value.object (fields ++ [("updated_at", .ofWord (lastWritten stored))])).text) :
    a.told?.bind (Value.member? "updated_at") = some (.ofWord n) := by
  rw [lastWritten_of_hasMoment hstored] at hbody
  rw [Answer.told_of_field fields (List.forall_mem_nil _) hbody, Record.readBack_ofWord]

/-- A request that puts a record, or moves it, is told its moment if it is answered with 200. -/
theorem told_updated_of_status {board : Board} {t : Table} {r : Request} {key : String}
    (ht : Store.AllHaveMoments t) (hclock : r.now ≤ 2 ^ (53 : Nat))
    (hasks : Asks "PUT" key r ∨ AsksToMove key r)
    (hstatus : (board.answer .direct t r).2.status = 200) :
    ∃ (stored : Record) (n : UInt64), (board.answer .direct t r).1.get? key = some stored.encode ∧
      stored.get? "updated_at" = some (.ofWord n) ∧
      (board.answer .direct t r).2.told?.bind (Value.member? "updated_at") = some (.ofWord n) := by
  rcases hasks with hput | hmove
  · obtain ⟨record, previous, -, hprevious, htable, hbody⟩ := stored_of_put hput hstatus
    obtain ⟨n, hn, -⟩ := ht.stamp hprevious (toNat_clock_le hclock) record
    refine ⟨_, n, by rw [htable, Table.get?_insert, if_pos rfl], hn.said, ?_⟩
    exact told_updated [("success", .boolean true), ("key", .string key)] hn hbody
  · obtain ⟨old, status, hold, htable, hbody⟩ := stored_of_move hmove hstatus
    obtain ⟨n, hn, -⟩ :=
      ht.stamp hold (toNat_clock_le hclock) (old.set "status" (.string status.text))
    refine ⟨_, n, by rw [htable, Table.get?_insert, if_pos rfl], hn.said, ?_⟩
    exact told_updated [("success", .boolean true), ("key", .string key),
      ("status", .string status.text)] hn hbody

/-! ## Runs -/

/-- Every record that a run leaves has a moment. -/
theorem allHaveMoments_run {board : Board} {rs : List Request}
    (hclock : ∀ r ∈ rs, r.now ≤ 2 ^ (53 : Nat)) :
    Store.AllHaveMoments (board.run .direct .empty rs).1 := by
  rw [run_eq_session]
  exact Store.allHaveMoments_session fun step hstep => isTimely_of_mem_journal hclock hstep

/--
**The moment of the last write does not go back.**  On a board that begins with nothing and whose
clock stays up to `2 ^ 53`, where a clock before the epoch reads as the epoch:

* the table is what the steps of the run make of it, each at the clock of its request;
* every record that a step stores has a moment of its last write, a word that is not before its
  clock;
* of two records stored under a key, with no step in between that deletes the key, the later one has
  the later moment or the same;
* what is told about this moment to a request that puts a record, or moves one, is what the record
  says that was stored.
-/
theorem last_moment_never_goes_back (board : Board) (rs : List Request)
    (hclock : ∀ r ∈ rs, r.now ≤ 2 ^ (53 : Nat)) :
    ((board.run .direct .empty rs).1 = (session .direct .empty (journal board .empty rs)).1 ∧
      ∀ (t : Table), ∀ r ∈ rs, ∀ key record now, .upsert key record now ∈ writes board t r →
        (now.toNat : Int) = max r.now 0) ∧
    (∀ i key now stored, Stores (journal board .empty rs) i key now stored →
      ∃ n : UInt64, stored.get? "updated_at" = some (.ofWord n) ∧ now ≤ n) ∧
    (∀ i j key now now' stored stored' n n', i < j →
      Stores (journal board .empty rs) i key now stored →
      Stores (journal board .empty rs) j key now' stored' →
      (∀ l, i < l → l < j → (journal board .empty rs)[l]? ≠ some (.delete key)) →
      stored.get? "updated_at" = some (.ofWord n) →
      stored'.get? "updated_at" = some (.ofWord n') → n ≤ n') ∧
    (∀ front r back, rs = front ++ r :: back → ∀ key, Asks "PUT" key r ∨ AsksToMove key r →
      (board.answer .direct (board.run .direct .empty front).1 r).2.status = 200 →
        ∃ (stored : Record) (n : UInt64),
          (board.answer .direct (board.run .direct .empty front).1 r).1.get? key =
            some stored.encode ∧
          stored.get? "updated_at" = some (.ofWord n) ∧
          (board.answer .direct (board.run .direct .empty front).1 r).2.told?.bind
            (Value.member? "updated_at") = some (.ofWord n)) := by
  have hsteps : ∀ step ∈ journal board .empty rs, step.IsTimely :=
    fun step hstep => isTimely_of_mem_journal hclock hstep
  refine ⟨⟨run_eq_session board .empty rs, ?_⟩, ?_, ?_, ?_⟩
  · intro t r hr key record now hstep
    rcases brings_of_mem_writes hstep with ⟨_, _, heq, -⟩ | ⟨_, heq, -⟩
    · cases heq
      rw [toNat_clock (hclock r hr)]
      omega
    · cases heq
  · intro i key now stored h
    obtain ⟨n, hn, hle⟩ := h.hasMoment hsteps
    exact ⟨n, hn.said, hle⟩
  · intro i j key now now' stored stored' n n' hlt h h' hkept hn hn'
    obtain ⟨m, hm, -⟩ := h.hasMoment hsteps
    obtain ⟨m', hm', -⟩ := h'.hasMoment hsteps
    have hle := h.moment_le hsteps h' hlt hkept hm hm'
    rwa [hm.eq_of_said hn, hm'.eq_of_said hn'] at hle
  · intro front r back hrs key hasks hstatus
    rw [hrs] at hclock
    have hfront : ∀ r ∈ front, r.now ≤ 2 ^ (53 : Nat) :=
      fun r hr => hclock r (List.mem_append_left _ hr)
    have hr : r.now ≤ 2 ^ (53 : Nat) :=
      hclock r (List.mem_append_right _ List.mem_cons_self)
    exact told_updated_of_status (allHaveMoments_run hfront) hr hasks hstatus

/-- A record that is put twice, the second time at an earlier clock. -/
theorem told_moment_of_second_put :
    ∃ board : Board,
      Board.ofSettings { ({} : Settings) with apiKey := some "k" } = .ok board ∧
      (board.answer .direct (board.run .direct .empty [smallPut 9]).1 (smallPut 5)).2.status = 200 ∧
      ∃ (stored : Record) (n : UInt64),
        (board.answer .direct (board.run .direct .empty [smallPut 9]).1 (smallPut 5)).1.get? "a" =
          some stored.encode ∧
        stored.get? "updated_at" = some (.ofWord n) ∧
        (board.answer .direct (board.run .direct .empty [smallPut 9]).1 (smallPut 5)).2.told?.bind
          (Value.member? "updated_at") = some (.ofWord n) := by
  obtain ⟨board, hboard⟩ := exists_board "k" (by decide)
  have hclock : ∀ r ∈ [smallPut 9, smallPut 5], r.now ≤ 2 ^ (53 : Nat) := by
    intro r hr
    simp only [List.mem_cons, List.not_mem_nil, or_false] at hr
    rcases hr with rfl | rfl
    · exact (by decide : (9 : Int) ≤ 2 ^ (53 : Nat))
    · exact (by decide : (5 : Int) ≤ 2 ^ (53 : Nat))
  obtain ⟨-, htable⟩ := answer_of_smallPut (t := .empty) hboard 9 rfl
  have hbefore : Backend.direct.getRecord (board.run .direct .empty [smallPut 9]).1 "a" =
      .ok (some (Record.empty.stamp "a" none (clockSeconds 9)).reread) := by
    rw [run_cons, run_nil, htable]
    exact getRecord_of_smallPut none .empty (clockSeconds 9) nofun
  obtain ⟨hstatus, -⟩ := answer_of_smallPut hboard 5 hbefore
  obtain ⟨-, -, -, htold⟩ := last_moment_never_goes_back board _ hclock
  exact ⟨board, hboard.settings, hstatus,
    htold [smallPut 9] (smallPut 5) [] rfl "a" (.inl (asks_smallPut 5)) hstatus⟩

end RecordBoard.Board
