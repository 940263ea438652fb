import RecordBoard.Proofs.Board.Put

/-!
# Reading what was put

A record that was put is told as it was given, but for its three stamps.  It has been read from a
body, written to the table, read from there, written to an answer, and read by the client; on the
way only numbers could have changed, and of these only doubles.  So the statement is about records
without doubles, and says of each field what the client sees in it.

## Main results

* `told_of_put` — what a client is told who reads a record that was put, doubles included.
* `put_is_read_back` — field by field, if there are no doubles.
-/

namespace RecordBoard

open Json (Value)

namespace Board

open Store (Backend Table)
open Http (Request Answer)

/-- What a client is told who reads a record that was put. -/
theorem told_of_put {board : Board} {t : Table} {key : String} {r g : Request}
    (hput : Asks "PUT" key r) (hstatus : (board.answer .direct t r).2.status = 200)
    (hget : Asks "GET" key g) (hadmits : board.guard.admits g.headers = true) :
    ∃ record previous, Record.decode r.body = .ok record ∧
      Backend.direct.getRecord t key = .ok previous ∧
      (board.answer .direct (board.answer .direct t r).1 g).2.status = 200 ∧
      (board.answer .direct (board.answer .direct t r).1 g).2.told? =
        some (record.stamp key previous (clock r)).reread.reread.toValue := by
  obtain ⟨record, previous, hrecord, hprevious, htable, -⟩ := stored_of_put hput hstatus
  have hwithin : (record.stamp key previous (clock r)).toValue.Within Json.maxDepth :=
    within_of_upsert (Record.within_of_decode hrecord)
      (Store.upsert_of_ok hprevious record (clock r))
  have hdecode := Record.decode_encode hwithin
  have hfound : Backend.direct.getRecord (board.answer .direct t r).1 key =
      .ok (some (record.stamp key previous (clock r)).reread) := by
    rw [htable]
    exact Store.getRecord_of_decode (by rw [Table.get?_insert, if_pos rfl]) hdecode
  obtain ⟨hfine, hbody⟩ := answer_of_get hget hadmits hfound
  exact ⟨record, previous, hrecord, hprevious, hfine,
    Answer.told?_of_record (Record.within_of_decode hdecode).ordered hbody⟩

/--
**What was put is read back.**  If a request that puts a record is answered with 200, then a reading
of the record that follows is, and it tells an object whose fields are those of the body, but for
three: its key, a moment of the last write that is not before the clock, and a moment of the first
write, which is the one in the record that was there unless it is missing or null, or else the one
in the body unless it is, or else the clock.  Neither the body nor that moment may have a double in
it.
-/
theorem put_is_read_back (board : Board) (t : Table) {key : String} {r g : Request}
    {record : Record} (hput : Asks "PUT" key r)
    (hstatus : (board.answer .direct t r).2.status = 200)
    (hrecord : Record.decode r.body = .ok record) (hwhole : record.toValue.IsWhole)
    (hprevious : ∀ p v, Backend.direct.getRecord t key = .ok (some p) →
      p.present? "created_at" = some v → v.IsWhole)
    (hget : Asks "GET" key g) (hadmits : board.guard.admits g.headers = true) :
    ∃ (previous : Option Record) (fields : Keyed Value) (n : UInt64),
      Backend.direct.getRecord t key = .ok previous ∧
      (board.answer .direct (board.answer .direct t r).1 g).2.status = 200 ∧
      (board.answer .direct (board.answer .direct t r).1 g).2.told? = some (.object fields) ∧
      Keyed.IsSorted fields ∧ clock r ≤ n ∧
      ∀ field, Keyed.get? field fields =
        if field = "updated_at" then some (.ofWord n)
        else if field = "created_at" then
          some (((previous.bind (Record.present? "created_at")) <|>
            record.present? "created_at").getD (.ofWord (clock r)))
        else if field = "key" then some (.string key)
        else record.get? field := by
  obtain ⟨record', previous, hrecord', hfound, hfine, htold⟩ :=
    told_of_put hput hstatus hget hadmits
  rw [hrecord] at hrecord'
  cases hrecord'
  have hcarried : ∀ v, previous.bind (Record.present? "created_at") = some v → v.IsWhole := by
    intro v hv
    obtain ⟨p, hp, hv⟩ := Option.bind_eq_some_iff.1 hv
    exact hprevious p v (hp ▸ hfound) hv
  refine ⟨previous, _, Record.stampFor previous (clock r), hfound, hfine, htold, ?_, ?_,
    fun field => ?_⟩
  · have hordered : (record.stamp key previous (clock r)).toValue.IsOrdered := by
      refine Record.isOrdered_stamp key (clock r) (Record.within_of_decode hrecord).ordered
        fun p hp => ?_
      obtain ⟨_, -, hdecode⟩ := Store.exists_value_of_getRecord (hp ▸ hfound)
      exact (Record.within_of_decode hdecode).ordered
    exact Value.isSorted_rereadFields (Value.isSorted_rereadFields hordered.1)
  · show clock r ≤ if clock r ≤ _ then _ else _
    split
    next hle => exact hle
    next => exact UInt64.le_refl _
  · have hstored : (record.stamp key previous (clock r)).toValue.IsWhole :=
      Record.isWhole_stamp key hwhole hcarried
    rw [Record.reread_of_isWhole hstored, Record.reread_of_isWhole hstored]
    exact Record.get?_stamp key previous (clock r) record field

/-- A record is put in the place of another, and read: its own fields are told as they were brought,
and the moment of the first write is the one of the other. -/
theorem visit_is_read_back :
    ∃ (board : Board) (t : Table) (fields : Keyed Value) (n : UInt64),
      Board.ofSettings { ({} : Settings) with apiKey := some "k" } = .ok board ∧
      t = (board.answer .direct .empty (putOf plan 5)).1 ∧
      (board.answer .direct (board.answer .direct t (putOf visit 9)).1
        (carrying "k" "GET" "/state/a" [] 10)).2.told? = some (.object fields) ∧
      (∀ field ∈ ["bounds", "note", "parts"], Keyed.get? field fields = visit.get? field) ∧
      Keyed.get? "key" fields = some (.string "a") ∧
      Keyed.get? "created_at" fields = plan.get? "created_at" ∧
      Keyed.get? "updated_at" fields = some (.ofWord n) ∧ 9 ≤ n ∧
      Keyed.get? "name" fields = none := by
  obtain ⟨board, hboard⟩ := exists_board "k" (by decide)
  obtain ⟨-, hplan⟩ := found_of_putOf hboard within_plan isWhole_plan (by decide +kernel) 5
    (rfl : Backend.direct.getRecord Table.empty "a" = .ok none) nofun
  have hcarried : ∀ p v,
    Backend.direct.getRecord (board.answer .direct .empty (putOf plan 5)).1 "a" =
      .ok (some p) → p.present? "created_at" = some v → v.IsWhole := by
    intro p v hp hv
    rw [hplan] at hp
    cases hp
    cases hv
    trivial
  obtain ⟨hstatus, -⟩ := found_of_putOf hboard within_visit isWhole_visit length_visit 9 hplan
    fun v hv => hcarried _ v hplan hv
  obtain ⟨previous, fields, n, hfound, -, htold, -, hle, hfields⟩ :=
    put_is_read_back board _ (asks_putOf visit 9) hstatus
      (decode_putOf decode_visit 9) isWhole_visit
      hcarried (asks_smallGet 10) (hboard.admits_carrying _ _ _ _)
  rw [hplan] at hfound
  cases hfound
  refine ⟨board, _, fields, n, hboard.settings, rfl, htold, ?_, ?_, ?_, ?_, hle, ?_⟩
  · simp only [List.forall_mem_cons, List.not_mem_nil, false_implies, implies_true, and_true]
    exact ⟨hfields "bounds", hfields "note", hfields "parts"⟩
  · exact hfields "key"
  · exact hfields "created_at"
  · exact hfields "updated_at"
  · exact hfields "name"

end Board

end RecordBoard
