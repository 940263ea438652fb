import RecordBoard.Proofs.Store.Records

/-!
# The moment of the last write, along a session

The stamp of a write is the clock, or the stamp of the record in its place if that is later.  That
stamp has gone through the table as a text and is looked at as a double, so it is the same number
only as long as doubles hold it exactly.  With a clock up to `2 ^ 53` they do, since no stamp is
ever later than the latest clock so far: the moment is a word of that size in every record of a
session, and it never goes back between two deletions of its key.

The steps of a session are told apart by their number.  The table that a step finds is the one that
the steps in front of it leave, and its reply is what it does there.

## Main definitions

* `Step.IsTimely` — a step that deletes, or writes at a clock reading up to `2 ^ 53`.
* `HasMoment` — a record says when it was last written, in a number that doubles hold.
* `Stores` — a step of a session stores a record.

## Main results

* `session_take_succ`, `getElem?_session` — what the steps of a session do, by their number.
* `Stores.hasMoment` — every record that is stored has a moment, not before the clock.
* `Stores.moment_le` — of two records stored under a key, with no deletion in between, the later
  one has the later moment.
-/

namespace RecordBoard.Store

open Json (Value)

-- Powers are those of the core library, whatever else an importing module knows.
attribute [local instance (2000)] instPowNat

/-! ## Steps by their number -/

theorem session_take_succ (b : Backend) (t : Table) {steps : List Step} {i : Nat} {step : Step}
    (h : steps[i]? = some step) :
    (session b t (steps.take (i + 1))).1 = (step.perform b (session b t (steps.take i)).1).1 := by
  rw [List.take_add_one, h, session_append]
  rfl

/-- The reply to a step is what it does to the table that the steps in front of it leave. -/
theorem getElem?_session (b : Backend) (t : Table) (steps : List Step) (i : Nat) :
    (session b t steps).2[i]? =
      (steps[i]?).map fun step => (step.perform b (session b t (steps.take i)).1).2 := by
  induction steps generalizing t i with
  | nil => rfl
  | cons step rest ih =>
    rw [session_cons]
    cases i with
    | zero => rfl
    | succ i =>
      rw [List.getElem?_cons_succ, List.getElem?_cons_succ, List.take_succ_cons, ih, session_cons]

/-! ## Moments -/

/-- A record says when it was last written, in a number that doubles hold. -/
structure HasMoment (n : UInt64) (r : Record) : Prop where
  /-- The record says it. -/
  said : r.get? "updated_at" = some (.ofWord n)
  /-- The number is not too large. -/
  exact_le : n.toNat ≤ 2 ^ (53 : Nat)

theorem HasMoment.reread {n : UInt64} {r : Record} (h : HasMoment n r) : HasMoment n r.reread where
  said := by rw [Record.get?_reread, h.said, Option.map_some, Record.reread_ofWord]
  exact_le := h.exact_le

theorem HasMoment.eq_of_said {m n : UInt64} {r : Record} (hm : HasMoment m r)
    (hn : r.get? "updated_at" = some (.ofWord n)) : m = n := by
  have heq := hm.said.symm.trans hn
  injection heq with heq
  injection heq with heq
  injection heq with heq
  exact UInt64.toNat_inj.1 (Int.natCast_inj.1 heq)

theorem hasMoment_stamp_none {now : UInt64} (hnow : now.toNat ≤ 2 ^ (53 : Nat)) (key : String)
    (r : Record) : HasMoment now (r.stamp key none now) where
  said := by
    have hstamp : Record.stampFor none now = now := by
      show (if now ≤ 0 then 0 else now) = now
      split
      next hle => exact (UInt64.le_antisymm hle (UInt64.zero_le)).symm
      next => rfl
    rw [Record.get?_stamp_updated, hstamp]
  exact_le := hnow

/-- The stamp of a write is the later of the clock and the moment of the record in its place. -/
theorem HasMoment.stamp {n now : UInt64} {p : Record} (h : HasMoment n p)
    (hnow : now.toNat ≤ 2 ^ (53 : Nat)) (key : String) (r : Record) :
    ∃ m, HasMoment m (r.stamp key (some p) now) ∧ now ≤ m ∧ n ≤ m := by
  have hstamp : Record.stampFor (some p) now = if now ≤ n then n else now := by
    rw [Record.stampFor, Record.floor_of_updatedAt h.said h.exact_le]
    rfl
  have hsaid := Record.get?_stamp_updated key (some p) now r
  rw [hstamp] at hsaid
  by_cases hle : now ≤ n
  · rw [if_pos hle] at hsaid
    exact ⟨n, ⟨hsaid, h.exact_le⟩, hle, UInt64.le_refl n⟩
  · rw [if_neg hle] at hsaid
    exact ⟨now, ⟨hsaid, hnow⟩, UInt64.le_refl now, UInt64.le_of_lt (UInt64.not_le.1 hle)⟩

/-! ## Sessions -/

/-- A step that deletes, or writes a record in order at a clock reading up to `2 ^ 53`. -/
inductive Step.IsTimely : Step → Prop
  /-- It writes. -/
  | upsert (key : String) {r : Record} {now : UInt64} (hr : r.toValue.IsOrdered)
      (hnow : now.toNat ≤ 2 ^ (53 : Nat)) : IsTimely (.upsert key r now)
  /-- It deletes. -/
  | delete (key : String) : IsTimely (.delete key)

/-- Every record of the table has a moment. -/
def AllHaveMoments (t : Table) : Prop := t.Holds fun _ r => ∃ n, HasMoment n r

theorem AllHaveMoments.perform {t : Table} (h : AllHaveMoments t) {step : Step}
    (hstep : step.IsTimely) :
    AllHaveMoments (step.perform .direct t).1 := by
  cases hstep with
  | upsert key hr hnow =>
    refine Table.Holds.upsert h hr fun previous hprevious => ?_
    cases previous with
    | none => exact ⟨_, hasMoment_stamp_none hnow key _⟩
    | some p =>
      obtain ⟨s, -, ⟨n, hn⟩, rfl⟩ := hprevious p rfl
      obtain ⟨m, hm, -⟩ := hn.reread.stamp hnow key _
      exact ⟨m, hm⟩
  | delete key => exact Table.Holds.delete h key

/-- A record that is stamped against one of the table has a moment, not before the clock. -/
theorem AllHaveMoments.stamp {t : Table} (h : AllHaveMoments t) {key : String} {now : UInt64}
    {previous : Option Record} (hprevious : Backend.direct.getRecord t key = .ok previous)
    (hnow : now.toNat ≤ 2 ^ (53 : Nat)) (r : Record) :
    ∃ n, HasMoment n (r.stamp key previous now) ∧ now ≤ n := by
  cases previous with
  | none => exact ⟨now, hasMoment_stamp_none hnow key r, UInt64.le_refl now⟩
  | some p =>
    obtain ⟨s, -, ⟨n, hn⟩, rfl⟩ := Table.Holds.getRecord h hprevious
    obtain ⟨m, hm, hle, -⟩ := hn.reread.stamp hnow key r
    exact ⟨m, hm, hle⟩

/-- Every record that a session leaves has a moment. -/
theorem allHaveMoments_session {steps : List Step} (hsteps : ∀ step ∈ steps, step.IsTimely) :
    AllHaveMoments (session .direct .empty steps).1 :=
  session_induction steps Table.holds_empty fun _ step hstep ht => ht.perform (hsteps step hstep)

/-- A write that stored a record found one in its place that has a moment, or none. -/
theorem exists_of_stored {t : Table} {key : String} {r stored : Record} {now : UInt64}
    (h : ((Step.upsert key r now).perform .direct t).2 = .ok (.stored stored)) :
    ∃ previous, Backend.direct.getRecord t key = .ok previous ∧ stored = r.stamp key previous now ∧
      ((Step.upsert key r now).perform .direct t).1 = t.insert key stored.encode := by
  rcases perform_upsert t key r now with ⟨previous, hprevious, hperform⟩ | ⟨e, -, hperform⟩
  · rw [hperform] at h ⊢
    cases h
    exact ⟨previous, hprevious, rfl, rfl⟩
  · rw [hperform] at h
    cases h

/-- The `i`th step of a session from the empty table stores a record under a key, at a clock
reading. -/
def Stores (steps : List Step) (i : Nat) (key : String) (now : UInt64) (stored : Record) : Prop :=
  ∃ r, steps[i]? = some (.upsert key r now) ∧
    (session .direct .empty steps).2[i]? = some (.ok (.stored stored))

section Session

variable {steps : List Step} (hsteps : ∀ step ∈ steps, step.IsTimely)

include hsteps

/-- What a step that stored a record did: it found one in its place that can be read, or none. -/
theorem Stores.found {i : Nat} {key : String} {stored : Record} {now : UInt64}
    (h : Stores steps i key now stored) :
    ∃ (r : Record) (previous : Option Record),
      Backend.direct.getRecord (session .direct .empty (steps.take i)).1 key = .ok previous ∧
      stored = r.stamp key previous now ∧ stored.toValue.IsOrdered ∧
      (session .direct .empty (steps.take (i + 1))).1.get? key = some stored.encode ∧
      now.toNat ≤ 2 ^ (53 : Nat) := by
  obtain ⟨r, hstep, hreply⟩ := h
  rw [getElem?_session, hstep, Option.map_some] at hreply
  obtain ⟨previous, hprevious, hstored, htable⟩ := exists_of_stored (Option.some.inj hreply)
  cases hsteps _ (List.mem_of_getElem? hstep) with
  | upsert _ hr hnow =>
    refine ⟨r, previous, hprevious, hstored, ?_, ?_, hnow⟩
    · rw [hstored]
      refine Record.isOrdered_stamp key now hr fun p hp => ?_
      rw [hp] at hprevious
      obtain ⟨_, -, hdecode⟩ := exists_value_of_getRecord hprevious
      exact (Record.within_of_decode hdecode).ordered
    · rw [session_take_succ .direct .empty hstep, htable, Table.get?_insert, if_pos rfl]

/-- Every record that is stored has a moment, not before the clock. -/
theorem Stores.hasMoment {i : Nat} {key : String} {stored : Record} {now : UInt64}
    (h : Stores steps i key now stored) : ∃ n, HasMoment n stored ∧ now ≤ n := by
  obtain ⟨r, previous, hprevious, rfl, -, -, hnow⟩ := h.found hsteps
  have hfront : AllHaveMoments (session .direct .empty (steps.take i)).1 :=
    allHaveMoments_session fun step hmem => hsteps step (List.mem_of_mem_take hmem)
  exact hfront.stamp hprevious hnow r

/-- Until its key is deleted, what is read in place of a stored record has no earlier moment. -/
theorem Stores.holdsAt {i j : Nat} {key : String} {stored : Record} {now n : UInt64}
    (h : Stores steps i key now stored) (hn : HasMoment n stored) (hlt : i < j)
    (hj : j ≤ steps.length) (hkept : ∀ l, i < l → l < j → steps[l]? ≠ some (.delete key)) :
    (session .direct .empty (steps.take j)).1.HoldsAt key fun r => ∃ m, HasMoment m r ∧ n ≤ m := by
  induction hlt with
  | refl =>
    obtain ⟨r, previous, -, -, hordered, hvalue, -⟩ := h.found hsteps
    refine ⟨_, hvalue, fun s hs => ?_⟩
    rw [Record.eq_reread_of_decode hordered hs]
    exact ⟨n, hn.reread, UInt64.le_refl n⟩
  | @step j hij ih =>
    have hbefore := ih (Nat.le_of_succ_le hj) fun l hl hl' => hkept l hl (Nat.lt_succ_of_lt hl')
    obtain ⟨next, hnext⟩ : ∃ next, steps[j]? = some next := ⟨_, List.getElem?_eq_getElem hj⟩
    rw [session_take_succ .direct .empty hnext]
    have htimely := hsteps next (List.mem_of_getElem? hnext)
    cases htimely with
    | upsert other hr hnow =>
      refine hbefore.upsert hr fun p ⟨m, hm, hle⟩ => ?_
      obtain ⟨m', hm', -, hle'⟩ := hm.stamp hnow key _
      exact ⟨m', hm'.reread, UInt64.le_trans hle hle'⟩
    | delete other =>
      refine hbefore.delete fun heq => ?_
      exact hkept j hij (Nat.lt_succ_self j) (heq ▸ hnext)

/-- Of two records stored under a key, with no deletion in between, the later one has the later
moment. -/
theorem Stores.moment_le {i j : Nat} {key : String} {stored stored' : Record}
    {now now' n n' : UInt64} (h : Stores steps i key now stored)
    (h' : Stores steps j key now' stored') (hlt : i < j)
    (hkept : ∀ l, i < l → l < j → steps[l]? ≠ some (.delete key)) (hn : HasMoment n stored)
    (hn' : HasMoment n' stored') : n ≤ n' := by
  have hj : j ≤ steps.length := by
    obtain ⟨r, hstep, -⟩ := h'
    exact Nat.le_of_lt (List.getElem?_eq_some_iff.1 hstep).1
  have hbefore := h.holdsAt hsteps hn hlt hj hkept
  obtain ⟨r, previous, hprevious, rfl, -, -, hnow⟩ := h'.found hsteps
  cases previous with
  | none =>
    obtain ⟨value, hvalue, -⟩ := hbefore
    rw [absent_of_getRecord hprevious] at hvalue
    cases hvalue
  | some p =>
    obtain ⟨m, hm, hle⟩ := hbefore.getRecord hprevious
    obtain ⟨m', hm', -, hle'⟩ := hm.stamp hnow key r
    rw [hn'.eq_of_said hm'.said]
    exact UInt64.le_trans hle hle'

end Session

end RecordBoard.Store
