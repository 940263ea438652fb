import RecordBoard.Proofs.Board.Put

/-!
# The moment of the first write

A record keeps the moment of its first write until it is deleted.  Every write hands it on from the
record in its place, whatever the new record says, and it survives being written and read because it
is an integer.

The record in its place may have become unreadable, since a delivery can nest too deep.  Then
nothing is written in its place any more, so the record that is read next, if one is, was there
before.  That is why the invariant speaks of what is read under the key, if something is, and not of
what is there.

## Main results

* `holdsAt_answer` — what a request preserves under a key that it does not delete.
* `first_moment_is_kept` — two readings of a record without a deletion in between.
-/

namespace RecordBoard

open Json (Value)

-- Powers are those of the core library, whatever else an importing module knows.
attribute [local instance (2000)] instPowNat

namespace Json.Value

/-- An integer is read where an integer was written, and nowhere else. -/
theorem reread_eq_integer {v : Value} {i : Int} {fits : -2 ^ (63 : Nat) ≤ i ∧ i < 2 ^ (64 : Nat)} :
    v.reread = .number (.integer i fits) ↔ v = .number (.integer i fits) := by
  constructor
  · intro h
    cases v with
    | number n =>
      rw [reread] at h
      cases n with
      | integer j fits' => rwa [reread_integer] at h
      | double d =>
        obtain ⟨f, hf⟩ := Numeral.exists_scaled_numeralOf d
        rw [reread_double hf] at h
        cases h
    | null | boolean | string => simp [reread] at h
    | array | object => simp [reread] at h
  · rintro rfl
    rw [reread, reread_integer]

end Json.Value

namespace Board

open Store (Backend Table Step session)
open Http (Request Answer)

/-! ## Deletions -/

/-- A deletion that reaches the table is answered with 200. -/
theorem status_of_delete {board : Board} {t : Table} {r : Request} {key : String}
    (h : .delete key ∈ writes board t r) :
    Asks "DELETE" key r ∧ (board.answer .direct t r).2.status = 200 := by
  unfold writes at h
  split at h
  · cases h
  next hopen =>
    rcases List.mem_append.1 h with h | h
    · obtain ⟨draft, -, heq⟩ := List.mem_map.1 h
      cases heq
    · obtain ⟨key', hkey', heq⟩ := List.mem_map.1 h
      cases heq
      obtain ⟨hmethod, segment, hresource, hkey⟩ := asks_of_mem_deletions hkey'
      have hreply : (outcome board .direct t r).2 = .ok (ok [("success", .boolean true),
          ("key", .string key), ("deleted", .boolean (t.get? key).isSome)]) := by
        unfold outcome carryOut
        rw [if_neg hopen, hresource, hmethod]
        show (deleteRecord .direct segment t).2 = _
        unfold deleteRecord
        rw [hkey]
        rfl
      exact ⟨⟨hmethod, segment, hresource, hkey⟩,
        (answer_of_reply (by rw [hmethod]; decide) hreply).1⟩

/-- What a request preserves under a key that it does not delete. -/
theorem holdsAt_answer {board : Board} {t : Table} {r : Request} {key : String} {P : Record → Prop}
    (h : t.HoldsAt key P) (hdelete : Asks "DELETE" key r →
      (board.answer .direct t r).2.status ≠ 200)
    (hstamp : ∀ (record p : Record) (now : UInt64),
      P p → P (record.stamp key (some p) now).reread) :
    (board.answer .direct t r).1.HoldsAt key P := by
  rw [answer_eq_session]
  refine Store.session_induction _ h fun t' step hstep ht' => ?_
  rcases brings_of_mem_writes hstep with ⟨other, record, rfl, hbrings⟩ | ⟨other, rfl, -⟩
  · exact ht'.upsert (isOrdered_of_brings hbrings) fun p => hstamp record p (clock r)
  · refine ht'.delete fun heq => ?_
    obtain ⟨hasks, hstatus⟩ := status_of_delete (heq ▸ hstep)
    exact hdelete hasks hstatus

/-- What is answered to a run, with the requests. -/
theorem holdsAt_run {board : Board} {t : Table} {rs : List Request} {key : String}
    {P : Record → Prop} (h : t.HoldsAt key P)
    (hkept : ∀ e ∈ rs.zip (board.run .direct t rs).2, Asks "DELETE" key e.1 → e.2.status ≠ 200)
    (hstamp : ∀ (record p : Record) (now : UInt64),
      P p → P (record.stamp key (some p) now).reread) :
    (board.run .direct t rs).1.HoldsAt key P := by
  induction rs generalizing t with
  | nil => exact h
  | cons r rest ih =>
    rw [run_cons, List.zip_cons_cons] at hkept
    obtain ⟨hr, hrest⟩ := List.forall_mem_cons.1 hkept
    rw [run_cons]
    exact ih (holdsAt_answer h hr hstamp) hrest

/-! ## Two readings -/

/-- The moment of the first write is handed on by a stamp, and read where it was written. -/
theorem created_of_stamp {key : String} {p : Record} {c : Int}
    {fits : -2 ^ (63 : Nat) ≤ c ∧ c < 2 ^ (64 : Nat)}
    (hp : p.get? "created_at" = some (.number (.integer c fits))) (record : Record) (now : UInt64) :
    (record.stamp key (some p) now).reread.get? "created_at" =
      some (.number (.integer c fits)) := by
  have hpresent : p.present? "created_at" = some (.number (.integer c fits)) :=
    Record.present?_eq_some_iff.2 ⟨hp, rfl⟩
  rw [Record.get?_reread, Record.get?_stamp_created, Record.firstWritten_of_previous hpresent,
    Option.map_some, Value.reread_eq_integer.2 rfl]

/-- What a reading tells about a field whose value is an integer. -/
theorem told_member_iff {board : Board} {t : Table} {key field : String} {g : Request} {c : Int}
    {fits : -2 ^ (63 : Nat) ≤ c ∧ c < 2 ^ (64 : Nat)} {record : Record}
    (hrecord : Backend.direct.getRecord t key = .ok (some record))
    (hbody : (board.answer .direct t g).2.body = record.toValue.text) :
    (board.answer .direct t g).2.told?.bind (Value.member? field) =
      some (.number (.integer c fits)) ↔
      record.get? field = some (.number (.integer c fits)) := by
  obtain ⟨value, -, hdecode⟩ := Store.exists_value_of_getRecord hrecord
  rw [Answer.told?_of_record (Record.within_of_decode hdecode).ordered hbody, Option.bind_some]
  show record.reread.get? field = _ ↔ _
  rw [Record.get?_reread, Option.map_eq_some_iff]
  constructor
  · rintro ⟨v, hv, hreread⟩
    rw [hv, Value.reread_eq_integer.1 hreread]
  · intro h
    exact ⟨_, h, Value.reread_eq_integer.2 rfl⟩

/--
**The moment of the first write is kept.**  If a reading of a record is answered with 200 and tells
an integer for this moment, and a later one is answered with 200 while no deletion of the record was
in between, then the later one tells the same integer.  The table that the first reading finds may
be any that requests have left, and more.
-/
theorem first_moment_is_kept (board : Board) (t : Table) (between : List Request) {key : String}
    {g g' : Request} {c : Int} {fits : -2 ^ (63 : Nat) ≤ c ∧ c < 2 ^ (64 : Nat)}
    (hfirst : Asks "GET" key g) (hstatus : (board.answer .direct t g).2.status = 200)
    (hcreated : (board.answer .direct t g).2.told?.bind (Value.member? "created_at") =
      some (.number (.integer c fits)))
    (hkept : ∀ e ∈ (g :: between).zip (board.run .direct t (g :: between)).2,
      Asks "DELETE" key e.1 → e.2.status ≠ 200)
    (hlater : Asks "GET" key g')
    (hstatus' : (board.answer .direct (board.run .direct t (g :: between)).1 g').2.status = 200) :
    (board.answer .direct (board.run .direct t (g :: between)).1 g').2.told?.bind
      (Value.member? "created_at") = some (.number (.integer c fits)) := by
  have hbefore : t.HoldsAt key fun r => r.get? "created_at" = some (.number (.integer c fits)) := by
    obtain ⟨record, hrecord, hbody⟩ := getRecord_of_answer hfirst hstatus
    obtain ⟨value, hvalue, hdecode⟩ := Store.exists_value_of_getRecord hrecord
    refine ⟨value, hvalue, fun r hr => ?_⟩
    rw [hdecode] at hr
    cases hr
    exact (told_member_iff hrecord hbody).1 hcreated
  have hafter := holdsAt_run hbefore hkept fun record p now hp => created_of_stamp hp record now
  obtain ⟨record, hrecord, hbody⟩ := getRecord_of_answer hlater hstatus'
  exact (told_member_iff hrecord hbody).2 (hafter.getRecord hrecord)

/-- A record that was first written at one moment is put again at another, and read before and
after. -/
theorem first_moment_is_kept_by_put :
    ∃ (board : Board) (t : Table),
      Board.ofSettings { ({} : Settings) with apiKey := some "k" } = .ok board ∧
      t = Table.empty.insert "a" (Record.empty.stamp "a" none 5).encode ∧
      (board.answer .direct (board.run .direct t
        [carrying "k" "GET" "/state/a" [] 7, smallPut 9]).1
          (carrying "k" "GET" "/state/a" [] 11)).2.told?.bind (Value.member? "created_at") =
        some (.number (.integer 5 (by decide))) := by
  obtain ⟨board, hboard⟩ := exists_board "k" (by decide)
  have hbefore := getRecord_of_smallPut none .empty 5 nofun
  obtain ⟨hstatus, hbody⟩ :=
    answer_of_get (asks_smallGet 7) (hboard.admits_carrying _ _ _ _) hbefore
  obtain ⟨-, htable⟩ := answer_of_smallPut hboard 9 hbefore
  obtain ⟨_, -, hdecode⟩ := Store.exists_value_of_getRecord hbefore
  have hafter : Backend.direct.getRecord (board.run .direct
      (Table.empty.insert "a" (Record.empty.stamp "a" none 5).encode)
        [carrying "k" "GET" "/state/a" [] 7, smallPut 9]).1 "a" =
      .ok (some (Record.empty.stamp "a" (some (Record.empty.stamp "a" none 5).reread)
        (clockSeconds 9)).reread) := by
    rw [run_cons, run_cons, run_nil, table_of_get (asks_smallGet 7), htable]
    exact getRecord_of_smallPut _ _ (clockSeconds 9) fun p hp =>
      Option.some.inj hp ▸ Record.within_of_decode hdecode
  refine ⟨board, _, hboard.settings, rfl,
    first_moment_is_kept board _ _ (asks_smallGet 7) hstatus ?_ ?_ (asks_smallGet 11) ?_⟩
  · refine (told_member_iff hbefore hbody).2 ?_
    rw [Record.get?_reread, Record.get?_stamp_created]
    exact congrArg some (Value.reread_eq_integer.2 rfl)
  · intro e he hdelete
    have hmem := (List.of_mem_zip he).1
    simp only [List.mem_cons, List.not_mem_nil, or_false] at hmem
    rcases hmem with heq | heq
    · rw [heq] at hdelete
      exact absurd hdelete.1 (by decide)
    · rw [heq] at hdelete
      exact absurd hdelete.1 (by decide)
  · exact (answer_of_get (asks_smallGet 11) (hboard.admits_carrying _ _ _ _) hafter).1

end Board

end RecordBoard
