import RecordBoard.Proofs.Board.ReadBack
import RecordBoard.Proofs.Json.Settled

/-!
# What is told of a record once it was made

The answer to a request that makes a record tells the record as it is in memory.  A reading that
follows tells it as it is read from the table, where its written form lies.  The two agree on
everything but doubles: each double is told the second time as the one that is read where it was
written.  For most doubles that is the double itself; where it is not, the client sees another
number than it was told before.

## Main results

* `Record.reread_eq_self_iff` — which records are read where they were written.
* `created_record_is_told_as_read` — what a reading tells of a record that was made.
* `billionths_are_told_differently` — a number that is told in two ways.
-/

namespace RecordBoard

open Json (Value Number)

/-- A record is read where it was written if and only if its doubles are. -/
theorem Record.reread_eq_self_iff {r : Record} :
    r.reread = r ↔ ∀ d ∈ r.toValue.doubles, d.IsSettled := by
  rw [← Value.reread_eq_self_iff, ← Record.toValue_reread, Record.toValue, Record.toValue,
    Value.object.injEq]
  exact ⟨congrArg Record.fields, fun h => by cases r; exact congrArg Record.mk h⟩

namespace Board

open Store (Backend Table)
open Http (Request Answer)

/--
**A record that was made is told again as its numerals are read.**  The answer with status 201 to a
request that makes a record tells its key and the record that was stored.  A reading of that key
that follows and is let through is answered with 200, and with that record but for its doubles, each
of which is told as the double that is read where it was written.  So it is the record of the first
answer if and only if every double in it is read where it was written.  The same holds of a record
that was read from any text, written, and read again.

A double is read where it was written if its numeral is short: if its digits make a number that is a
double, and count in a power of ten between the twenty-second and its inverse.  One that is not is
told in another way, since no two doubles are written alike.
-/
theorem created_record_is_told_as_read (board : Board) (t : Table) {r : Request}
    (hcreate : AsksToCreate r) (hstatus : (board.answer .direct t r).2.status = 201) :
    (∃ (key : String) (stored : Record),
      (board.answer .direct t r).2.body =
        (Value.object [("success", .boolean true), ("key", .string key),
          ("record", stored.toValue)]).text ∧
      (∀ g, Asks "GET" key g → board.guard.admits g.headers = true →
        (board.answer .direct (board.answer .direct t r).1 g).2.status = 200 ∧
        (board.answer .direct (board.answer .direct t r).1 g).2.body = stored.reread.toValue.text) ∧
      (stored.reread = stored ↔ ∀ d ∈ stored.toValue.doubles, d.IsSettled)) ∧
    (∀ bytes record, Record.decode bytes = .ok record →
      Record.decode record.encode = .ok record.reread ∧
      (record.reread = record ↔ ∀ d ∈ record.toValue.doubles, d.IsSettled)) ∧
    ∀ d : Binary64, (d.IsShort → d.IsSettled) ∧
    (d.IsSettled ↔ (Number.double d).reread.text = d.text) := by
  refine ⟨?_, fun bytes record hrecord => ?_,
    fun d => ⟨Binary64.isSettled_of_isShort, Binary64.isSettled_iff_text⟩⟩
  · obtain ⟨asked, key, record, stored, hasked, hassigned, hwritten, hbody⟩ :=
      stored_of_create hcreate hstatus
    have hfound := getRecord_of_upsert (within_of_assigned hasked hassigned) hwritten
    exact ⟨key, stored, hbody, fun g hget hadmits => answer_of_get hget hadmits hfound,
      Record.reread_eq_self_iff⟩
  · exact ⟨Record.decode_encode (Record.within_of_decode hrecord), Record.reread_eq_self_iff⟩

/-! ## Two fractions -/

/-- What is to be told of a record that is made of a text and then read: the key that it names, and
two bodies. -/
def toldTwice? (body : String) : Option (String × String × String) :=
  (draftOf? none body).map fun draft =>
    (draft.1, (createReply draft (draft.2.stamp draft.1 none (clockSeconds 5))).body.text,
      (draft.2.stamp draft.1 none (clockSeconds 5)).reread.toValue.text)

/-- A board that begins with nothing tells it so. -/
theorem answers_of_toldTwice {board : Board} (hboard : board.IsDefault "k")
    {body made read : String} (hlength : (Utf8.encode body).length ≤ 33554432)
    (h : toldTwice? body = some ("a", made, read)) :
    (board.answer .direct .empty (smallCreate none body 5)).2.status = 201 ∧
      (board.answer .direct .empty (smallCreate none body 5)).2.body = made ∧
      (board.answer .direct (board.answer .direct .empty (smallCreate none body 5)).1
        (carrying "k" "GET" "/state/a" [] 6)).2.body = read := by
  obtain ⟨⟨key, record⟩, hdraft, htold⟩ := Option.map_eq_some_iff.1 h
  simp only [Prod.mk.injEq] at htold
  obtain ⟨rfl, rfl, rfl⟩ := htold
  obtain ⟨hstatus, hmade, -, hfound⟩ := answer_of_smallCreate hboard 5 hlength hdraft
    (rfl : Backend.direct.getRecord Table.empty "a" = .ok none)
  exact ⟨hstatus, hmade,
    (answer_of_get (asks_smallGet 6) (hboard.admits_carrying _ _ _ _) hfound).2⟩

/-- A body with a moment in thousandths of a second. -/
def thousandths : String := "\x7b\"key\":\"a\",\"created_at\":1000000000.123\x7d"

/-- It is told again as it was told first. -/
theorem thousandths_are_told_again :
    ∃ (board : Board) (key : String) (stored : Record),
      Board.ofSettings { ({} : Settings) with apiKey := some "k" } = .ok board ∧
      (board.answer .direct .empty (smallCreate none thousandths 5)).2.body = (Value.object
        [("success", .boolean true), ("key", .string key), ("record", stored.toValue)]).text ∧
      (∀ g, Asks "GET" key g → board.guard.admits g.headers = true →
        (board.answer .direct
            (board.answer .direct .empty (smallCreate none thousandths 5)).1 g).2.body =
          stored.reread.toValue.text) ∧
      (board.answer .direct (board.answer .direct .empty (smallCreate none thousandths 5)).1
        (carrying "k" "GET" "/state/a" [] 6)).2.body =
          "\x7b\"created_at\":1000000000.123,\"key\":\"a\",\"updated_at\":5\x7d" := by
  have htold : toldTwice? thousandths = some ("a",
      "\x7b\"success\":true,\"key\":\"a\",\"record\":" ++
        "\x7b\"created_at\":1000000000.123,\"key\":\"a\",\"updated_at\":5\x7d\x7d",
      "\x7b\"created_at\":1000000000.123,\"key\":\"a\",\"updated_at\":5\x7d") := by
    decide +kernel
  obtain ⟨board, hboard⟩ := exists_board "k" (by decide)
  obtain ⟨hstatus, -, hagain⟩ := answers_of_toldTwice hboard (by decide +kernel) htold
  obtain ⟨⟨key, stored, hbody, hread, -⟩, -⟩ :=
    created_record_is_told_as_read board .empty (asksToCreate_smallCreate _ _ _) hstatus
  exact ⟨board, key, stored, hboard.settings, hbody, fun g hget hadmits =>
    (hread g hget hadmits).2, hagain⟩

/-- A body with a moment in billionths. -/
def billionths : String := "\x7b\"key\":\"a\",\"created_at\":1000000000.123456789\x7d"

/-- It is told as one number when the record is made, and as another when it is read. -/
theorem billionths_are_told_differently :
    ∃ board : Board, Board.ofSettings { ({} : Settings) with apiKey := some "k" } = .ok board ∧
      (board.answer .direct .empty (smallCreate none billionths 5)).2.status = 201 ∧
      (board.answer .direct .empty (smallCreate none billionths 5)).2.body =
        "\x7b\"success\":true,\"key\":\"a\",\"record\":" ++
          "\x7b\"created_at\":1000000000.1234567,\"key\":\"a\",\"updated_at\":5\x7d\x7d" ∧
      (board.answer .direct (board.answer .direct .empty (smallCreate none billionths 5)).1
        (carrying "k" "GET" "/state/a" [] 6)).2.body =
          "\x7b\"created_at\":1000000000.1234568,\"key\":\"a\",\"updated_at\":5\x7d" := by
  have htold : toldTwice? billionths = some ("a",
      "\x7b\"success\":true,\"key\":\"a\",\"record\":" ++
        "\x7b\"created_at\":1000000000.1234567,\"key\":\"a\",\"updated_at\":5\x7d\x7d",
      "\x7b\"created_at\":1000000000.1234568,\"key\":\"a\",\"updated_at\":5\x7d") := by
    decide +kernel
  obtain ⟨board, hboard⟩ := exists_board "k" (by decide)
  exact ⟨board, hboard.settings, answers_of_toldTwice hboard (by decide +kernel) htold⟩

end Board

end RecordBoard
