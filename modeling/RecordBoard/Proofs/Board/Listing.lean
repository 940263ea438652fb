import RecordBoard.Proofs.Board.Stored
import RecordBoard.Proofs.Settings.PageSize
import RecordBoard.Proofs.Store.Page

/-!
# What a page tells

The answer to a request for a page tells the records under the keys of the page, each as a reading
of its key would tell it, and the cursor of the page.  A page holds at least one key if there is
one, whatever size is asked for, because a board has a largest page that is not empty.

## Main definitions

* `AsksPage` — a request for a page of the records under a stem.
* `Http.Answer.records`, `Http.Answer.keys`, `Http.Answer.cursor?` — what a client reads in the
  answer.
* `TellsPage` — an answer that tells a page.

## Main results

* `tellsPage_of_asksPage` — a request for a page is answered with it.
* `TellsPage.keys` — the keys that are told are those of the page.
* `TellsPage.told_of_mem` — each record that is told is what a reading of its key tells.
-/

namespace RecordBoard

open Json (Value)

/-- The text under which a record says that it is kept. -/
def Json.Value.keyText? (v : Value) : Option String := (v.member? "key").bind Value.asString?

/-- The records that a client reads on a page. -/
def Http.Answer.records (a : Http.Answer) : List Value :=
  ((a.told?.bind (Value.member? "records")).bind Value.asArray?).getD []

/-- The keys that the records on a page name. -/
def Http.Answer.keys (a : Http.Answer) : List String := a.records.filterMap Value.keyText?

/-- The cursor that a client reads on a page. -/
def Http.Answer.cursor? (a : Http.Answer) : Option Value := a.told?.bind (Value.member? "cursor")

namespace Board

open Store (Backend Page Table)
open Http (Request Answer)

/-! ## Requests for pages -/

/-- A request for a page of the records under a stem, from where a cursor points. -/
structure AsksPage (stem : String) (cursor : Option String) (r : Request) : Prop where
  /-- It reads. -/
  method : r.method = "GET"
  /-- It is about all records. -/
  resource : Resource.ofTarget r.target = .records
  /-- It says nothing twice. -/
  once : repeated? [] r.target.fields = none
  /-- It names the stem, unless that is empty. -/
  stem : (queryField? "prefix" r.target.fields).getD "" = stem
  /-- It names the cursor, if there is one. -/
  cursor : queryField? "cursor" r.target.fields = cursor

/-- Without a query it is about all records, from the first one on. -/
theorem asksPage_of_no_fields {r : Request} (hmethod : r.method = "GET")
    (hresource : Resource.ofTarget r.target = .records) (hfields : r.target.fields = []) :
    AsksPage "" none r := by
  refine ⟨hmethod, hresource, ?_, ?_, ?_⟩ <;> rw [hfields] <;> rfl

/-- A page has room for a key, whatever size is asked for. -/
theorem exists_pageSize {s : Settings} {board : Board} (hboard : Board.ofSettings s = .ok board)
    (asked : Option String) : ∃ size, 0 < size ∧ pageSize board asked = .ok size := by
  obtain ⟨hcheck, hlimits⟩ := check_of_ofSettings hboard
  obtain ⟨size, hsize, hpos, -⟩ :=
    Limits.exists_pageSize? (Settings.checkLimits_of_check hcheck) asked
  refine ⟨size, hpos, ?_⟩
  rw [pageSize, hlimits, hsize]

/-- The body that tells a page. -/
def pageFields (records : List Record) (cursor : Option String) : List (String × Value) :=
  [("records", .array (records.map Record.toValue)), ("count", .ofCount records.length),
    ("cursor", .ofString? cursor)]

/-- A request for a page comes to the records on it. -/
theorem carryOut_of_listRecords {board : Board} {stem : String} {after : Option String}
    {r : Request} {size : Nat}
    (hsize : pageSize board (queryField? "limit" r.target.fields) = .ok size)
    (hafter : after ≠ some "") (hasks : AsksPage stem (after.map Store.Cursor.encode) r)
    (t : Table) :
    carryOut board .direct t r =
      (t, (calling (Backend.direct.listRecords t stem size (after.map Store.Cursor.encode))).map
        fun found => ok (pageFields found.1 found.2)) := by
  have hcursor : (queryField? "cursor" r.target.fields).filter (fun s => s != "") =
      after.map Store.Cursor.encode := by
    rw [hasks.cursor]
    cases after with
    | none => rfl
    | some last =>
      have hne : Store.Cursor.encode last ≠ "" :=
        Store.Cursor.encode_ne_empty fun hempty => hafter (congrArg some hempty)
      rw [Option.map_some, Option.filter_some, if_pos (bne_iff_ne.2 hne)]
  unfold carryOut
  rw [hasks.method, hasks.resource]
  show listRecords board .direct r.target t = _
  unfold listRecords
  dsimp only
  rw [hasks.once, hasks.stem, hsize, hcursor]
  exact Store.Action.bind_pure_apply _ (fun found : List Record × Option String =>
    ok (pageFields found.1 found.2)) t

section Pages

variable {board : Board} {stem : String} {after : Option String} {t : Table} {r : Request}
  {size : Nat}
  (hsize : pageSize board (queryField? "limit" r.target.fields) = .ok size)
  (hafter : after ≠ some "")
  (hasks : AsksPage stem (after.map Store.Cursor.encode) r)

include hsize hafter hasks

/-- If all values under the stem are records, it comes to the page. -/
theorem carryOut_of_asksPage (hread : t.IsReadable stem) :
    carryOut board .direct t r =
      (t, .ok (ok (pageFields ((t.page stem size after).keys.filterMap t.record?)
        (t.page stem size after).cursor))) := by
  rw [carryOut_of_listRecords hsize hafter hasks,
    Table.listRecords_of_list hread (Table.list_of_key t stem size after)]
  rfl

/-- If one on the page is none, it fails. -/
theorem status_of_undecodable (hadmits : board.guard.admits r.headers = true) {key : String}
    {value : Bytes} (hkey : key ∈ (t.page stem size after).keys) (hvalue : t.get? key = some value)
    (hdecode : ∀ record, Record.decode value ≠ .ok record) :
    (board.answer .direct t r).2.status = 500 := by
  obtain ⟨f, hf⟩ :=
    Table.listRecords_of_undecodable (Table.list_of_key t stem size after) hkey hvalue hdecode
  refine status_of_failure (f := .store (.unreadableRecord f)) (by rw [hasks.method]; decide) ?_
  rw [outcome_of_admitted board .direct t hadmits, carryOut_of_listRecords hsize hafter hasks, hf]
  rfl

end Pages

/-! ## What is told -/

/-- An answer that tells a page of a table. -/
structure TellsPage (t : Table) (page : Page) (a : Answer) : Prop where
  /-- The request was carried out. -/
  status : a.status = 200
  /-- The records are those under the keys of the page. -/
  records : a.records = page.keys.filterMap fun key => (t.record? key).map fun r => r.reread.toValue
  /-- The cursor is that of the page, or null. -/
  cursor : a.cursor? = some (.ofString? page.cursor)

/-- A record that is read from a table is in order. -/
theorem isOrdered_of_record? {t : Table} {key : String} {r : Record} (h : t.record? key = some r) :
    r.toValue.IsOrdered := by
  obtain ⟨_, -, hdecode⟩ := Store.exists_value_of_getRecord (Table.getRecord_of_record? h)
  exact (Record.within_of_decode hdecode).ordered

/-- A request for a page is answered with it. -/
theorem tellsPage_of_asksPage {board : Board} {stem : String} {size : Nat} {after : Option String}
    {t : Table} {r : Request}
    (hsize : pageSize board (queryField? "limit" r.target.fields) = .ok size)
    (hafter : after ≠ some "") (hread : t.IsReadable stem)
    (hasks : AsksPage stem (after.map Store.Cursor.encode) r)
    (hadmits : board.guard.admits r.headers = true) :
    TellsPage t (t.page stem size after) (board.answer .direct t r).2 := by
  have hreply : (outcome board .direct t r).2 =
      .ok (ok (pageFields ((t.page stem size after).keys.filterMap t.record?)
        (t.page stem size after).cursor)) := by
    rw [outcome_of_admitted board .direct t hadmits, carryOut_of_asksPage hsize hafter hasks hread]
  obtain ⟨hstatus, hbody⟩ := answer_of_reply (by rw [hasks.method]; decide) hreply
  have hordered : Value.ItemsOrdered
      (((t.page stem size after).keys.filterMap t.record?).map Record.toValue) := by
    refine Value.itemsOrdered_iff.2 fun v hv => ?_
    obtain ⟨record, hrecord, rfl⟩ := List.mem_map.1 hv
    obtain ⟨key, -, hkey⟩ := List.mem_filterMap.1 hrecord
    exact isOrdered_of_record? hkey
  have hbody := hbody (by rw [hasks.method]; decide)
  refine ⟨hstatus, ?_, ?_⟩
  · rw [Answer.records, Answer.told_of_field [] (by simp) hbody, Value.readBack,
      Value.readBackItems_of_isOrdered _ hordered, Value.rereadItems_eq_map, List.map_map]
    show List.map (fun r : Record => r.toValue.reread) _ = _
    simp only [← Record.toValue_reread, List.map_filterMap]
  · exact (Answer.told_of_field (_ :: [_]) (by simp) hbody).trans
      (congrArg some (Value.readBack_ofString? _))

/-! ## Keys and records -/

/-- A record that is told where it stands under a key names it. -/
theorem member?_key_of_record? {t : Table} (ht : t.Holds IsStamped) {key : String} {r : Record}
    (h : t.record? key = some r) : r.reread.toValue.member? "key" = some (.string key) := by
  obtain ⟨s, -, hs, rfl⟩ := ht.getRecord (Table.getRecord_of_record? h)
  show s.reread.reread.get? "key" = _
  rw [Record.get?_reread, Record.get?_reread, hs.named, Option.map_some, Option.map_some,
    Value.reread_string, Value.reread_string]

theorem filterMap_eq_self {l : List String} {f : String → Option String}
    (h : ∀ x ∈ l, f x = some x) :
    l.filterMap f = l := by
  induction l with
  | nil => rfl
  | cons x rest ih =>
    obtain ⟨hx, hrest⟩ := List.forall_mem_cons.1 h
    rw [List.filterMap_cons, hx, ih hrest]

/-- A request for a page leaves the table alone. -/
theorem table_of_asksPage (board : Board) (b : Backend) (t : Table) {stem : String}
    {cursor : Option String} {r : Request} (h : AsksPage stem cursor r) :
    (board.answer b t r).1 = t := by
  rw [answer_of_method board b t (by rw [h.method]; decide)]
  unfold outcome
  split
  · rfl
  · exact carryOut_of_read board b t (by rw [h.method]; decide)

variable {stem : String} {size : Nat} {after : Option String} {t : Table} {page : Page} {a : Answer}

theorem TellsPage.cursor_eq_some (h : TellsPage t page a) {c : String}
    (hc : a.cursor? = some (.string c)) : page.cursor = some c := by
  have htells := h.cursor.symm.trans hc
  cases hcursor : page.cursor with
  | none =>
    rw [hcursor] at htells
    cases htells
  | some c' =>
    rw [hcursor] at htells
    cases htells
    rfl

theorem TellsPage.cursor_eq_none (h : TellsPage t page a) (hnull : a.cursor? = some .null) :
    page.cursor = none := by
  have htells := h.cursor.symm.trans hnull
  cases hcursor : page.cursor with
  | none => rfl
  | some c =>
    rw [hcursor] at htells
    cases htells

/-- The keys that a page tells are those that it shows. -/
theorem TellsPage.keys (h : TellsPage t (t.page stem size after) a) (ht : t.Holds IsStamped)
    (hread : t.IsReadable stem) : a.keys = (t.page stem size after).keys := by
  rw [Answer.keys, h.records, List.filterMap_filterMap]
  refine filterMap_eq_self fun key hkey => ?_
  obtain ⟨hmem, hstem, -⟩ := Table.mem_run.1 (Table.mem_page hkey)
  obtain ⟨r, hr⟩ := Table.exists_record? hread hstem hmem
  rw [hr, Option.map_some, Option.bind_some, Value.keyText?, member?_key_of_record? ht hr]
  rfl

/-- Each record that is told is what a reading of its key tells. -/
theorem TellsPage.told_of_mem (h : TellsPage t (t.page stem size after) a) (ht : t.Holds IsStamped)
    (board : Board) {v : Value} (hv : v ∈ a.records) :
    ∃ key, v.member? "key" = some (.string key) ∧
      ∀ g, Asks "GET" key g → board.guard.admits g.headers = true →
        (board.answer .direct t g).2.status = 200 ∧
        (board.answer .direct t g).2.told? = some v := by
  rw [h.records] at hv
  obtain ⟨key, -, hrecord⟩ := List.mem_filterMap.1 hv
  obtain ⟨r, hr, rfl⟩ := Option.map_eq_some_iff.1 hrecord
  refine ⟨key, member?_key_of_record? ht hr, fun g hget hadmits => ?_⟩
  obtain ⟨hstatus, hbody⟩ := answer_of_get hget hadmits (Table.getRecord_of_record? hr)
  exact ⟨hstatus, Answer.told?_of_record (isOrdered_of_record? hr) hbody⟩

end Board

end RecordBoard
