import RecordBoard.Proofs.Board.Refusal

/-!
# No page is larger than it may be

A page is cut off where it is full before any record is read, and reading does not make more of its
keys.  So whatever is asked for, and whatever the table holds, an answer tells no more records than
a page holds; and on a store without faults nothing breaks down on the way, since the settings have
passed their check.

## Main definitions

* `Board.AsksForPage` — a request for a page.

## Main results

* `Backend.length_listRecords_le` — a page of records has no more of them than it may have.
* `Board.length_records_le` — an answer tells no more records than a page holds.
* `Board.page_sizes_are_safe` — which page size there is, and what it is good for.
-/

namespace RecordBoard

/-! ## Pages of a store -/

namespace Store.Backend

variable {b : Backend} {t : Table}

theorem length_readRecords {found : List (String × Bytes)} {records : List Record}
    (h : readRecords found = .ok records) : records.length = found.length := by
  induction found generalizing records with
  | nil =>
    cases h
    rfl
  | cons e rest ih =>
    obtain ⟨r, -, h⟩ := exists_of_bind h
    obtain ⟨others, hothers, h⟩ := exists_of_bind h
    cases h
    rw [List.length_cons, List.length_cons, ih hothers]

theorem length_getEach_le {keys : List String} {found : List (String × Bytes)}
    (h : b.getEach t keys = .ok found) :
    found.length ≤ keys.length := by
  induction keys generalizing found with
  | nil =>
    cases h
    exact Nat.le_refl _
  | cons key rest ih =>
    obtain ⟨value, -, h⟩ := exists_of_bind h
    obtain ⟨others, hothers, h⟩ := exists_of_bind h
    have hlength := ih hothers
    cases value with
    | none =>
      cases h
      exact Nat.le_succ_of_le hlength
    | some value =>
      cases h
      exact Nat.succ_le_succ hlength

theorem length_getMany_le {keys : List String} {found : List (String × Bytes)}
    (h : b.getMany t keys = .ok found) :
    found.length ≤ keys.length := by
  cases b with
  | direct =>
    cases h
    exact List.length_filterMap_le _ _
  | subject => exact length_getEach_le h

theorem length_list_le {stem : String} {limit : Nat} {cursor : Option String} {page : Page}
    (h : b.list t stem limit cursor = .ok page) : page.keys.length ≤ limit := by
  have hpage : ∀ after, (t.page stem limit after).keys.length ≤ limit :=
    fun after => List.length_take_le _ _
  unfold list through at h
  cases heffect : b.effectOn? .list stem with
  | some effect =>
    rw [heffect] at h
    cases effect <;> cases h
    exact Nat.zero_le limit
  | none =>
    rw [heffect] at h
    cases cursor with
    | none =>
      cases h
      exact hpage none
    | some text =>
      dsimp only at h
      cases hlast : Cursor.decode text with
      | error f =>
        rw [hlast] at h
        cases h
      | ok last =>
        rw [hlast] at h
        cases h
        exact hpage (some last)

/-- A page of records has no more of them than it may have, however the store treats its calls. -/
theorem length_listRecords_le {stem : String} {limit : Nat} {cursor : Option String}
    {found : List Record × Option String} (h : b.listRecords t stem limit cursor = .ok found) :
    found.1.length ≤ limit := by
  obtain ⟨page, hpage, h⟩ := exists_of_bind h
  obtain ⟨values, hvalues, h⟩ := exists_of_bind h
  obtain ⟨records, hrecords, h⟩ := exists_of_bind h
  cases h
  calc records.length = values.length := length_readRecords hrecords
    _ ≤ page.keys.length := length_getMany_le hvalues
    _ ≤ limit := length_list_le hpage

end Store.Backend

namespace Board

open Json (Value)
open Store (Backend Table)
open Http (Request Answer)

/-! ## Answers that tell a page -/

/-- A request for a page. -/
structure AsksForPage (r : Request) : Prop where
  /-- It reads. -/
  method : r.method = "GET"
  /-- It is about all records. -/
  resource : Resource.ofTarget r.target = .records

theorem carryOut_of_asksForPage {board : Board} {b : Backend} {t : Table} {r : Request}
    (h : AsksForPage r) :
    carryOut board b t r = listRecords board b r.target t := by
  unfold carryOut
  rw [h.method, h.resource]
  rfl

/-- What is listed is a page, of the size that was asked for. -/
theorem exists_of_listRecords {board : Board} {b : Backend} {t : Table} {target : Http.Target}
    {reply : Reply} {size : Nat}
    (hsize : pageSize board (queryField? "limit" target.fields) = .ok size)
    (h : (listRecords board b target t).2 = .ok reply) :
    ∃ records cursor, reply = ok (pageFields records cursor) ∧ records.length ≤ size := by
  obtain ⟨last, hlast⟩ : ∃ last, listRecords board b target t = (last, .ok reply) :=
    ⟨_, Prod.ext rfl h⟩
  unfold listRecords at hlast
  dsimp only at hlast
  cases hrepeated : repeated? [] target.fields with
  | some name =>
    rw [hrepeated] at hlast
    cases hlast
  | none =>
    rw [hrepeated] at hlast
    obtain ⟨other, hother, hlast⟩ := Store.Action.exists_of_check hlast
    cases hsize.symm.trans hother
    obtain ⟨found, hfound, hlast⟩ := Store.Action.exists_of_reading hlast
    cases hlast
    exact ⟨found.1, found.2, rfl, Backend.length_listRecords_le (ok_of_mapError hfound)⟩

section

variable {s : Settings} {board : Board} (hboard : Board.ofSettings s = .ok board) {b : Backend}
  {t : Table} {r : Request}
  (hasks : AsksForPage r) (hadmits : board.guard.admits r.headers = true)

include hboard hasks hadmits

/-- An answer tells no more records than a page holds. -/
theorem length_records_le {size : Nat}
    (hsize : s.limits.pageSize? (queryField? "limit" r.target.fields) = some size) :
    (board.answer b t r).2.records.length ≤ size := by
  have hget : r.method ≠ "HEAD" := by rw [hasks.method]; decide
  have hoptions : r.method ≠ "OPTIONS" := by rw [hasks.method]; decide
  have houtcome : (outcome board b t r).2 = (listRecords board b r.target t).2 := by
    rw [outcome_of_admitted board b t hadmits, carryOut_of_asksForPage hasks]
  cases hresult : (outcome board b t r).2 with
  | ok reply =>
    have hpageSize : pageSize board (queryField? "limit" r.target.fields) = .ok size := by
      rw [pageSize, (check_of_ofSettings hboard).2, hsize]
    obtain ⟨records, cursor, rfl, hlength⟩ :=
      exists_of_listRecords hpageSize (houtcome.symm.trans hresult)
    have hbody := (answer_of_reply hoptions hresult).2 hget
    rw [Answer.records, Answer.told_of_field [] (by simp) hbody, Value.readBack,
      Value.readBackItems_eq_map]
    show (List.map _ (List.map _ records)).length ≤ size
    rwa [List.length_map, List.length_map]
  | error h =>
    have hbody : (board.answer b t r).2.body = (errorBody h.message).text := by
      rw [answer_of_method board b t hoptions, body_withOrigins, hresult,
        body_answerOf_error _ hget]
    have hnone : (errorBody h.message).readBack.member? "records" = none :=
      Value.member?_readBack_eq_none (by simp)
    rw [Answer.records, Answer.told?_of_body hbody, Option.bind_some, hnone]
    exact Nat.zero_le size

end

/-- Whatever breaks down is a fault of the store. -/
theorem exists_fault_of_panic {s : Settings} {board : Board}
    (hboard : Board.ofSettings s = .ok board) {b : Backend} {t : Table} {r : Request}
    {p : Store.Panic} (h : (outcome board b t r).2 = .error (.panic p)) :
    ∃ fault, fault ∈ b.faults := by
  obtain ⟨status, words, hfrom⟩ := ends_outcome hboard _ h
  generalize hhalt : Halt.panic p = halt at hfrom
  cases hfrom with
  | store htrouble =>
    cases htrouble with
    | panics heffect | wordless heffect =>
      obtain ⟨fault, hfault, -⟩ := Store.Backend.mem_faults_of_effectOn heffect
      exact ⟨fault, hfault⟩
    | _ => cases hhalt
  | _ => cases hhalt

/--
**Page sizes are safe.**

* If the bounds pass their check there is a page size, whatever is asked for: at least one and at
  most the largest.  It is the number that is asked for, brought within these bounds, if a number
  is; and otherwise the one that is laid down.
* A request for a page to a board whose settings passed their check does not break down on a store
  without faults, and the answer tells no more records than a page of that size holds.
-/
theorem page_sizes_are_safe :
    (∀ limits : Limits, Settings.checkLimits limits = .ok () → ∀ asked : Option String,
      ∃ size, limits.pageSize? asked = some size ∧ 1 ≤ size ∧ size ≤ limits.largestPage ∧
        (∀ n, AsksForSize asked n → size = min (max n 1) limits.largestPage) ∧
        ((∀ n, ¬ AsksForSize asked n) → size = limits.defaultPage)) ∧
    ∀ {s : Settings} {board : Board}, Board.ofSettings s = .ok board →
      ∀ {b : Backend}, b.faults = [] → ∀ (t : Table) (r : Request),
        AsksForPage r → board.guard.admits r.headers = true →
        (∀ p, (outcome board b t r).2 ≠ .error (.panic p)) ∧
        ∃ size, s.limits.pageSize? (queryField? "limit" r.target.fields) = some size ∧
          (board.answer b t r).2.records.length ≤ size ∧ size ≤ s.limits.largestPage := by
  refine ⟨fun limits h asked => Limits.exists_pageSize? h asked, ?_⟩
  intro s board hboard b hfaults t r hasks hadmits
  constructor
  · intro p hpanic
    obtain ⟨fault, hfault⟩ := exists_fault_of_panic hboard hpanic
    rw [hfaults] at hfault
    cases hfault
  · have hcheck := Settings.checkLimits_of_check (check_of_ofSettings hboard).1
    obtain ⟨size, hsize, -, hlargest, -⟩ :=
      Limits.exists_pageSize? hcheck (queryField? "limit" r.target.fields)
    exact ⟨size, hsize, length_records_le hboard hasks hadmits hsize, hlargest⟩

/-- Where a page holds three records, asking for seven gives three at most, in whatever way seven is
written. -/
theorem seven_asked_for_are_three :
    ∃ board : Board,
      Board.ofSettings { ({} : Settings) with
        apiKey := some "k", limits := { defaultPage := 2, largestPage := 3 } } = .ok board ∧
      ({ defaultPage := 2, largestPage := 3 } : Limits).pageSize? (some " +007\u00a0") = some 3 ∧
      ∀ t,
        (board.answer .direct t (carrying "k" "GET" "/state?limit=%2B007" [] 0)).2.records.length ≤
          3 := by
  obtain ⟨board, hboard⟩ : ∃ board : Board,
      Board.ofSettings { ({} : Settings) with
        apiKey := some "k", limits := { defaultPage := 2, largestPage := 3 } } = .ok board :=
    exists_bounded rfl
  have hadmits : board.guard.admits (carrying "k" "GET" "/state?limit=%2B007" [] 0).headers =
      true :=
    admits_of_ofSettings hboard rfl (by decide +kernel)
  obtain ⟨hsizes, hpages⟩ := page_sizes_are_safe
  refine ⟨board, hboard, ?_, fun t => ?_⟩
  · obtain ⟨size, hsize, -, -, hasked, -⟩ :=
      hsizes { defaultPage := 2, largestPage := 3 } rfl (some " +007\u00a0")
    have hseven : SpellsWord " +007\u00a0" 7 := wordOfText?_trim_eq_some_iff.1 (by decide +kernel)
    rw [hsize, hasked 7 (.spelt hseven)]
    rfl
  · obtain ⟨-, size, -, hlength, hlargest⟩ :=
      hpages hboard (b := .direct) rfl t _ ⟨rfl, by decide +kernel⟩ hadmits
    exact Nat.le_trans hlength hlargest

end Board

end RecordBoard
