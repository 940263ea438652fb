import RecordBoard.Proofs.Board.Readable
import RecordBoard.Proofs.Record.Tally
import RecordBoard.Proofs.Store.Selected
import RecordBoard.Proofs.Store.Upsert

/-!
# What a summary tells

A summary counts the first records in the order of their keys, as many as the settings lay down.  It
tells what they come to, or fails if a value among them is no record; what lies behind them has no
part in it.

## Main definitions

* `Board.AsksForSummary` — a request for a summary.

## Main results

* `scan_of_readable` — the records that a summary counts.
* `summary_counts_each_record_once` — what is counted, and which records are.
-/

namespace RecordBoard

/-! ## The records that are counted -/

namespace Store.Table

variable {t : Table} {limit : Nat}

/-- Under each of some keys in the table stands the record that was read there. -/
theorem forall₂_record? {keys : List String} (hmem : ∀ key ∈ keys, key ∈ t.keys)
    (hread : ∀ key ∈ keys, ¬ t.IsUnreadableAt key) :
    List.Forall₂ (fun key r => t.record? key = some r) keys (keys.filterMap t.record?) := by
  induction keys with
  | nil => exact .nil
  | cons key rest ih =>
    obtain ⟨hkey, hrest⟩ := List.forall_mem_cons.1 hmem
    obtain ⟨hreadable, hread⟩ := List.forall_mem_cons.1 hread
    cases hrecord : t.record? key with
    | none =>
      -- A key that is there has a value, and the value is a record.
      have hnone : ∀ old, t.record? key ≠ some old := by simp [hrecord]
      rcases absent_or_unreadable hnone with habsent | hbad
      · have hthere := mem_keys_iff.1 hkey
        rw [habsent] at hthere
        cases hthere
      · exact absurd hbad hreadable
    | some r =>
      rw [List.filterMap_cons, hrecord]
      exact .cons hrecord (ih hrest hread)

/-- No others do. -/
theorem filterMap_record?_of_forall₂ {keys : List String} {records : List Record}
    (h : List.Forall₂ (fun key r => t.record? key = some r) keys records) :
    keys.filterMap t.record? = records := by
  induction h with
  | nil => rfl
  | cons hrecord _ ih => rw [List.filterMap_cons, hrecord, ih]

theorem page_of_all (t : Table) (limit : Nat) :
    (t.page "" limit none).keys = t.keys.take limit := by
  have hrun : t.run "" none = t.keys := by
    rw [run_eq_filter]
    exact List.filter_eq_self.2 fun _ _ => rfl
  simp only [page, hrun]

/-- If the first values are records, these are what is counted. -/
theorem scan_of_readable (h : ∀ key ∈ t.keys.take limit, ¬ t.IsUnreadableAt key) :
    Backend.direct.scan t limit = .ok ((t.keys.take limit).filterMap t.record?) := by
  have hread : Backend.readRecords (t.getMany (t.keys.take limit)) =
      .ok ((t.keys.take limit).filterMap t.record?) := by
    refine readRecords_getMany fun key hkey value hvalue => ?_
    cases hdecode : Record.decode value with
    | ok r => exact ⟨r, rfl⟩
    | error f => exact absurd ⟨value, f, hvalue, hdecode⟩ (h key hkey)
  unfold Backend.scan Backend.listRecords
  show (Backend.readRecords (t.getMany (t.page "" limit none).keys) >>= _) >>= _ = _
  rw [page_of_all, hread]
  rfl

end Store.Table

namespace Board

open Store (Backend Table)
open Http (Request)

/-! ## Requests for a summary -/

/-- A request for a summary. -/
structure AsksForSummary (r : Request) : Prop where
  /-- It reads. -/
  method : r.method = "GET"
  /-- It is about the summary. -/
  resource : Resource.ofTarget r.target = .summary

section

variable {board : Board} {t : Table} {r : Request} (hasks : AsksForSummary r)

include hasks

theorem carryOut_of_summary (b : Backend) : carryOut board b t r = summary board b t := by
  unfold carryOut
  rw [hasks.method, hasks.resource]
  rfl

theorem table_of_summary (b : Backend) : (board.answer b t r).1 = t := by
  rw [answer_of_method board b t (by rw [hasks.method]; decide)]
  unfold outcome
  rw [carryOut_of_summary hasks]
  split
  · rfl
  · exact isReading_summary board b t

/-- If the first values are records, their tally is told. -/
theorem answer_of_summary (hadmits : board.guard.admits r.headers = true)
    (h : ∀ key ∈ t.keys.take board.limits.summary, ¬ t.IsUnreadableAt key) :
    (board.answer .direct t r).2.status = 200 ∧
      (board.answer .direct t r).2.body =
        (Tally.ofList ((t.keys.take board.limits.summary).filterMap t.record?)).toValue.text := by
  have hoptions : r.method ≠ "OPTIONS" := by
    rw [hasks.method]
    decide
  have hcarried : carryOut board .direct t r =
      (t, .ok ⟨200,
        (Tally.ofList ((t.keys.take board.limits.summary).filterMap t.record?)).toValue⟩) := by
    rw [carryOut_of_summary hasks, summary_apply, Table.scan_of_readable h]
    rfl
  refine ⟨(answer_of_carried hoptions hadmits hcarried).1, ?_⟩
  exact body_of_carried hoptions hadmits (congrArg Prod.snd hcarried) (by rw [hasks.method]; decide)

/-- If one of them is none, the summary fails. -/
theorem status_of_unreadable_summary (hadmits : board.guard.admits r.headers = true) {key : String}
    (hkey : key ∈ t.keys.take board.limits.summary) (h : t.IsUnreadableAt key) :
    (board.answer .direct t r).2.status = 500 := by
  obtain ⟨value, f, hvalue, hdecode⟩ := h
  rw [← Table.page_of_all] at hkey
  refine status_of_undecodable_summary hasks.method hasks.resource hadmits hkey hvalue
    fun record hrecord => ?_
  rw [hdecode] at hrecord
  cases hrecord

end

/--
**A summary counts every record once.**

* A tally of records tells how many there are.  It tells how often each name occurs among the names
  of their kinds, and among those of their statuses; the numbers are positive, stand in the order of
  the names, and their sum is that of the records.  In another order the records come to the same
  tally, and those of two lists come to the sum of two tallies.
* A summary leaves the table alone.  It fails if and only if one of the first values, in the order
  of the keys and as many as the settings lay down, is no record; otherwise it tells the tally of
  the records that these are.
-/
theorem summary_counts_each_record_once :
    (∀ records : List Record,
      (Tally.ofList records).total = records.length ∧
      (∃! names, List.Forall₂ Record.IsGroupedUnder records names) ∧
      (∀ names, List.Forall₂ Record.IsGroupedUnder records names →
        (Tally.ofList records).byType.Counts names) ∧
      (∃! names, List.Forall₂ Record.IsInStatus records names) ∧
      (∀ names, List.Forall₂ Record.IsInStatus records names →
        (Tally.ofList records).byStatus.Counts names) ∧
      ∀ others,
        (records.Perm others → Tally.ofList others = Tally.ofList records) ∧
        (Tally.ofList records).IsSum (Tally.ofList others) (Tally.ofList (records ++ others))) ∧
    ∀ {s : Settings} {board : Board}, Board.ofSettings s = .ok board →
      ∀ (t : Table) (r : Request), AsksForSummary r → board.guard.admits r.headers = true →
        (board.answer .direct t r).1 = t ∧
        ((board.answer .direct t r).2.status = 500 ↔
          ∃ key ∈ t.keys.take s.limits.summary, t.IsUnreadableAt key) ∧
        ((board.answer .direct t r).2.status ≠ 500 →
          ∃ records, List.Forall₂ (fun key r => t.record? key = some r)
            (t.keys.take s.limits.summary) records ∧
            (board.answer .direct t r).2.status = 200 ∧
            (board.answer .direct t r).2.body = (Tally.ofList records).toValue.text) := by
  refine ⟨fun records => ⟨?_, Tally.existsUnique_kinds records, fun names => Tally.counts_byType,
    Tally.existsUnique_statuses records, fun names =>
      Tally.counts_byStatus, fun others => ⟨?_, ?_⟩⟩, ?_⟩
  · rw [Tally.ofList_eq]
  · exact Tally.ofList_eq_of_perm
  · exact Tally.isSum_append records others
  · intro s board hboard t r hasks hadmits
    obtain ⟨-, hlimits⟩ := check_of_ofSettings hboard
    refine ⟨table_of_summary hasks .direct, ?_⟩
    rw [← hlimits]
    by_cases hbad : ∃ key ∈ t.keys.take board.limits.summary, t.IsUnreadableAt key
    · obtain ⟨key, hkey, hunreadable⟩ := hbad
      have hstatus := status_of_unreadable_summary hasks hadmits hkey hunreadable
      exact ⟨⟨fun _ => ⟨key, hkey, hunreadable⟩, fun _ => hstatus⟩, fun hnot => absurd hstatus hnot⟩
    · have hread : ∀ key ∈ t.keys.take board.limits.summary, ¬ t.IsUnreadableAt key :=
        fun key hkey hunreadable => hbad ⟨key, hkey, hunreadable⟩
      obtain ⟨hstatus, hbody⟩ := answer_of_summary hasks hadmits hread
      refine ⟨⟨fun hfails => ?_, fun hunreadable => absurd hunreadable hbad⟩,
        fun _ => ⟨_, Table.forall₂_record? (fun _ => List.mem_of_mem_take) hread, hstatus, hbody⟩⟩
      rw [hstatus] at hfails
      cases hfails

/-- Three records, and behind them a value that is none. -/
def fourValues : Table :=
  .ofList [("a", Utf8.encode "\x7b\"type\":5\x7d"),
    ("b", Utf8.encode "\x7b\"key\":\"bug:7\",\"status\":\"todo\"\x7d"),
    ("c", Utf8.encode "\x7b\"key\":\":7\",\"status\":\"\"\x7d"), ("d", Utf8.encode "[]")]

/-- Where three records are counted, the value behind them does no harm. -/
theorem first_three_of_four_are_counted :
    ∃ board : Board,
      Board.ofSettings { ({} : Settings) with apiKey := some "k", limits := { summary := 3 } } =
        .ok board ∧
      (board.answer .direct fourValues (carrying "k" "GET" "/stats" [] 0)).2.status = 200 ∧
      (board.answer .direct fourValues (carrying "k" "GET" "/stats" [] 0)).2.body =
        "\x7b\"total\":3,\"by_type\":\x7b\"5\":1,\"bug\":1,\"unknown\":1\x7d," ++
          "\"by_status\":\x7b\"todo\":1,\"unknown\":2\x7d\x7d" := by
  obtain ⟨board, hboard⟩ : ∃ board : Board,
      Board.ofSettings { ({} : Settings) with apiKey := some "k", limits := { summary := 3 } } =
        .ok board :=
    exists_bounded rfl
  have hasks : AsksForSummary (carrying "k" "GET" "/stats" [] 0) := ⟨rfl, by decide⟩
  have hadmits : board.guard.admits (carrying "k" "GET" "/stats" [] 0).headers = true :=
    admits_of_ofSettings hboard rfl (by decide +kernel)
  obtain ⟨-, hfails, htells⟩ := summary_counts_each_record_once.2 hboard fourValues _ hasks hadmits
  have hread : (fourValues.keys.take 3).all (fun key => (fourValues.record? key).isSome) =
    true := by decide +kernel
  have hreadable : ¬ ∃ key ∈ fourValues.keys.take 3, fourValues.IsUnreadableAt key := by
    rintro ⟨key, hkey, hunreadable⟩
    obtain ⟨r, hrecord⟩ := Option.isSome_iff_exists.1 (List.all_eq_true.1 hread key hkey)
    exact Table.not_isUnreadableAt_of_record? hrecord hunreadable
  obtain ⟨records, hrecords, hstatus, hbody⟩ := htells (mt hfails.1 hreadable)
  refine ⟨board, hboard, hstatus, ?_⟩
  rw [hbody, ← Table.filterMap_record?_of_forall₂ hrecords]
  decide +kernel

end Board

end RecordBoard
