import RecordBoard.Proofs.Board.Listing

/-!
# Reading all pages

A client reads all records under a stem page by page, handing back each cursor that it is told,
until the cursor is null.  Between two pages others may write and delete as they like, so each page
is a page of another table.  Since a page goes on from a key and not from a place in the table, the
keys that are told ascend throughout, and a key that is in the table for the whole time is told on
exactly one page. If nothing is written in between, every page but the last one shows something that
is left, and the pages come to an end.

A cursor consists of hexadecimal digits and can be put into a query as it is.  It is never the empty
text, which a listing would take for none, because no record is stored under the empty key.

## Main definitions

* `Leg`, `PageRead`, `readings` — pages that are read while others use the board.
* `Follows` — each page is asked for with the cursor that the one before it told.
* `Shows` — each page goes on from the last key of the one before it.

## Main results

* `shows_of_follows` — cursors lead from page to page.
* `Shows.sorted`, `Shows.mem_of_present`, `Shows.length_le` — what is told, and how many pages it
  takes.
* `traversal_tells_each_key_once` — what all this comes to for a client.
-/

namespace RecordBoard.Board

open Json (Value)
open Store (Backend Table)
open Http (Request Answer)

/-! ## Traversals -/

/-- A leg of a traversal: what others ask for, and then the request for a page. -/
structure Leg where
  /-- The requests of others. -/
  others : List Request
  /-- The request for a page. -/
  page : Request

/-- A page as it was read. -/
structure PageRead where
  /-- The table that it was read from. -/
  table : Table
  /-- The request for it. -/
  request : Request
  /-- The answer. -/
  answer : Answer

/-- The pages that are read on the legs of a traversal, the first of which finds the table `t`. -/
def readings (board : Board) (t : Table) : List Leg → List PageRead
  | [] => []
  | leg :: rest =>
    let before := (board.run .direct t leg.others).1
    let (after, a) := board.answer .direct before leg.page
    ⟨before, leg.page, a⟩ :: readings board after rest

/-- The first page is asked for with a given cursor, and each other one with the cursor that the one
before it told. -/
inductive Follows (stem : String) : Option String → List PageRead → Prop where
  /-- No page has been asked for yet. -/
  | nil {cursor : Option String} : Follows stem cursor []
  /-- One page has. -/
  | last {cursor : Option String} {p : PageRead} (asks : AsksPage stem cursor p.request) :
      Follows stem cursor [p]
  /-- A page told a cursor, and a next one was asked for. -/
  | next {cursor : Option String} {c : String} {p q : PageRead} {rest : List PageRead}
      (asks : AsksPage stem cursor p.request) (told : p.answer.cursor? = some (.string c))
      (follows : Follows stem (some c) (q :: rest)) : Follows stem cursor (p :: q :: rest)

/-! ## Pages that go on from each other -/

/-- A page that was read from behind a key. -/
structure ShowsPage (stem : String) (size : Nat) (after : Option String) (p : PageRead) : Prop where
  /-- It has room for a key. -/
  size_pos : 0 < size
  /-- The answer tells it. -/
  tells : TellsPage p.table (p.table.page stem size after) p.answer
  /-- The keys that the answer tells are those of the page. -/
  keys : p.answer.keys = (p.table.page stem size after).keys

/-- The first page goes on from behind a given key, and each other one from the last key of the one
before it. -/
inductive Shows (stem : String) : Option String → List PageRead → Prop where
  /-- There is no page. -/
  | nil {after : Option String} : Shows stem after []
  /-- There is one page. -/
  | last {after : Option String} {size : Nat} {p : PageRead} (page : ShowsPage stem size after p) :
      Shows stem after [p]
  /-- A page goes on from another. -/
  | next {after : Option String} {size : Nat} {key c : String} {p q : PageRead}
    {rest : List PageRead}
      (page : ShowsPage stem size after p) (cursor : p.answer.cursor? = some (.string c))
      (parts : p.table.Parts stem size after key) (shows : Shows stem (some key) (q :: rest)) :
      Shows stem after (p :: q :: rest)

/-- What is known of a page that was read from a board that began with nothing. -/
structure IsRead (board : Board) (stem : String) (p : PageRead) : Prop where
  /-- The answer is the one to the request. -/
  answer : p.answer = (board.answer .direct p.table p.request).2
  /-- The records in the table carry their stamps. -/
  stamped : p.table.Holds IsStamped
  /-- Those under the stem can be read. -/
  readable : p.table.IsReadable stem
  /-- The request was let through. -/
  admits : board.guard.admits p.request.headers = true

/-- A page that is asked for with the cursor of a key is read from behind that key. -/
theorem exists_showsPage {s : Settings} {board : Board} (hboard : Board.ofSettings s = .ok board)
    {stem : String} {after : Option String} (hafter : after ≠ some "") {p : PageRead}
    (hp : IsRead board stem p) (hasks : AsksPage stem (after.map Store.Cursor.encode) p.request) :
    ∃ size, ShowsPage stem size after p := by
  obtain ⟨size, hpos, hsize⟩ := exists_pageSize hboard (queryField? "limit" p.request.target.fields)
  have htells := tellsPage_of_asksPage hsize hafter hp.readable hasks hp.admits
  rw [← hp.answer] at htells
  exact ⟨size, hpos, htells, htells.keys hp.stamped hp.readable⟩

/-- Cursors lead from page to page. -/
theorem shows_of_follows {s : Settings} {board : Board} (hboard : Board.ofSettings s = .ok board)
    {stem : String} {cursor : Option String} {pages : List PageRead} (h : Follows stem cursor pages)
    {after : Option String} (hcursor : cursor = after.map Store.Cursor.encode)
    (hafter : after ≠ some "") (hread : ∀ p ∈ pages, IsRead board stem p) :
    Shows stem after pages := by
  induction h generalizing after with
  | nil => exact .nil
  | last hasks =>
    obtain ⟨size, hshows⟩ :=
      exists_showsPage hboard hafter (hread _ List.mem_cons_self) (hcursor ▸ hasks)
    exact .last hshows
  | @next cursor c p q rest hasks htold hfollows ih =>
    obtain ⟨size, hshows⟩ :=
      exists_showsPage hboard hafter (hread _ List.mem_cons_self) (hcursor ▸ hasks)
    obtain ⟨key, rfl, hparts⟩ :=
      Table.exists_parts_of_cursor hshows.size_pos (hshows.tells.cursor_eq_some htold)
    have hkey : some key ≠ some "" := by
      intro hempty
      obtain ⟨hmem, -⟩ := Table.mem_run.1 (Table.mem_page hparts.shown)
      obtain ⟨value, hvalue⟩ := Table.exists_value hmem
      obtain ⟨r, -, -, hr⟩ := (hread p List.mem_cons_self).stamped key value hvalue
      exact hr.key_ne (Option.some.inj hempty)
    exact .next hshows htold hparts
      (ih rfl hkey fun p' hp' => hread p' (List.mem_cons_of_mem _ hp'))

/-! ## What is told -/

section Shows

variable {stem : String} {after : Option String} {pages : List PageRead}

/-- The keys that are told on the pages of a traversal. -/
def toldKeys (pages : List PageRead) : List String := pages.flatMap fun p => p.answer.keys

theorem Shows.exists_page (h : Shows stem after pages) {p : PageRead} (hp : p ∈ pages) :
    ∃ size after', ShowsPage stem size after' p := by
  induction h with
  | nil => cases hp
  | last hpage =>
    cases List.mem_singleton.1 hp
    exact ⟨_, _, hpage⟩
  | next hpage _ _ _ ih =>
    rcases List.mem_cons.1 hp with rfl | hp
    · exact ⟨_, _, hpage⟩
    · exact ih hp

theorem ShowsPage.mem_run {size : Nat} {p : PageRead} (h : ShowsPage stem size after p)
    {key : String} (hkey : key ∈ p.answer.keys) :
    stem.toList <+: key.toList ∧ ∀ last, after = some last → last < key := by
  rw [h.keys] at hkey
  exact (Table.mem_run.1 (Table.mem_page hkey)).2

/-- The keys that are told begin with the stem and lie behind the place where the first page
begins. -/
theorem Shows.mem_run (h : Shows stem after pages) {key : String} (hkey : key ∈ toldKeys pages) :
    stem.toList <+: key.toList ∧ ∀ last, after = some last → last < key := by
  induction h with
  | nil => cases hkey
  | last hpage =>
    rw [toldKeys, List.flatMap_singleton] at hkey
    exact hpage.mem_run hkey
  | next hpage _ hparts _ ih =>
    rw [toldKeys, List.flatMap_cons] at hkey
    rcases List.mem_append.1 hkey with hkey | hkey
    · exact hpage.mem_run hkey
    · obtain ⟨hstem, hbehind⟩ := ih hkey
      refine ⟨hstem, fun last hlast => ?_⟩
      have hbefore := (Table.mem_run.1 (Table.mem_page hparts.shown)).2.2 last hlast
      exact String.lt_trans hbefore (hbehind _ rfl)

/-- They ascend throughout. -/
theorem Shows.sorted (h : Shows stem after pages) : (toldKeys pages).Pairwise (· < ·) := by
  have hone : ∀ {size : Nat} {after : Option String} {p : PageRead}, ShowsPage stem size after p →
      p.answer.keys.Pairwise (· < ·) := fun hpage => hpage.keys ▸ Table.page_sorted stem _ _ _
  induction h with
  | nil => exact List.Pairwise.nil
  | last hpage =>
    rw [toldKeys, List.flatMap_singleton]
    exact hone hpage
  | next hpage _ hparts hshows ih =>
    rw [toldKeys, List.flatMap_cons]
    refine List.pairwise_append.2 ⟨hone hpage, ih, fun key hkey key' hkey' => ?_⟩
    rw [hpage.keys] at hkey
    exact Std.lt_of_le_of_lt (hparts.le key hkey) ((hshows.mem_run hkey').2 _ rfl)

/-- A key that begins with the stem and is in the table all the time is told, if the last page told
no cursor. -/
theorem Shows.mem_of_present (h : Shows stem after pages)
    (hdone : ∃ p, pages.getLast? = some p ∧ p.answer.cursor? = some .null) {key : String}
    (hstem : stem.toList <+: key.toList) (hafter : ∀ last, after = some last → last < key)
    (hpresent : ∀ p ∈ pages, key ∈ p.table.keys) : key ∈ toldKeys pages := by
  induction h with
  | nil =>
    obtain ⟨_, hnone, -⟩ := hdone
    cases hnone
  | @last after size p hpage =>
    obtain ⟨_, hlast, hnull⟩ := hdone
    cases hlast
    rw [toldKeys, List.flatMap_singleton, hpage.keys,
      Table.keys_of_cursor_none hpage.size_pos (hpage.tells.cursor_eq_none hnull)]
    exact Table.mem_run.2 ⟨hpresent p List.mem_cons_self, hstem, hafter⟩
  | @next after size last c p q rest hpage _ hparts _ ih =>
    rw [toldKeys, List.flatMap_cons]
    have hmem := Table.mem_run.2 ⟨hpresent p List.mem_cons_self, hstem, hafter⟩
    rcases hparts.behind key hmem with hshown | hbehind
    · exact List.mem_append_left _ (hpage.keys ▸ hshown)
    · refine List.mem_append_right _
        (ih ?_ ?_ fun p' hp' => hpresent p' (List.mem_cons_of_mem _ hp'))
      · rwa [List.getLast?_cons_cons] at hdone
      · rintro _ ⟨⟩
        exact hbehind

/-- On one table there are no more pages than keys, one page aside that there is in any case. -/
theorem Shows.length_le (h : Shows stem after pages) {t : Table}
    (hsame : ∀ p ∈ pages, p.table = t) :
    pages.length ≤ max 1 (t.run stem after).length := by
  induction h with
  | nil => exact Nat.zero_le _
  | last _ => exact Nat.le_max_left 1 _
  | next hpage _ hparts _ ih =>
    have hrest := ih fun p' hp' => hsame p' (List.mem_cons_of_mem _ hp')
    have hpos := hpage.size_pos
    have hmore := hparts.more
    have hlength := hparts.length
    rw [hsame _ List.mem_cons_self] at hmore hlength
    rw [List.length_cons]
    omega

end Shows

/-! ## What a client sees -/

/-- What is known of the pages of a traversal, if that is known of the table in the beginning. -/
theorem stamped_of_mem_readings {board : Board} {t : Table} {legs : List Leg} {p : PageRead}
    (ht : t.Holds IsStamped) (hp : p ∈ readings board t legs) :
    p.answer = (board.answer .direct p.table p.request).2 ∧ p.table.Holds IsStamped := by
  induction legs generalizing t with
  | nil => cases hp
  | cons leg rest ih =>
    have hbefore := holds_isStamped board ht leg.others
    rcases List.mem_cons.1 hp with rfl | hp
    · exact ⟨rfl, hbefore⟩
    · have hafter := holds_isStamped board hbefore [leg.page]
      rw [run_cons, run_nil] at hafter
      exact ih hafter hp

/-- A cursor can be put into a query as it is. -/
theorem fields_of_cursor (path key : String) :
    (Http.Target.mk path ("cursor=" ++ Store.Cursor.encode key)).fields =
      [("cursor", Store.Cursor.encode key)] := by
  have hquery : "cursor=" ++ Store.Cursor.encode key =
      String.ofList ("cursor".toList ++ '=' :: (Store.Cursor.encode key).toList) := by
    rw [← String.toList_inj]
    simp
  have hname : ∀ c ∈ "cursor".toList, Http.Target.IsPlain c :=
    Http.Target.isPlain_of_all (by decide)
  have hdigits : ∀ c ∈ "0123456789abcdef".toList, Http.Target.IsPlain c :=
    Http.Target.isPlain_of_all (by decide)
  have hplain : ∀ c ∈ (Store.Cursor.encode key).toList, Http.Target.IsPlain c :=
    fun c hc => hdigits c (Hex.mem_digits_of_mem_encode hc)
  rw [hquery, Http.Target.fields_of_plain path hname hplain, String.ofList_toList,
    String.ofList_toList]

/--
**Reading all pages tells each key once.**  Pages of the records under a stem are asked for, the
first one without a cursor and each other one with the cursor that the one before it told; before
each page others may have asked for anything.  If every value under the stem can be read whenever a
page is, then each page is answered with 200 and tells a cursor that can be put into a query as it
is, or null, and each record on it is what a reading of its key would tell at that moment.  The keys
ascend in the order of their octets over all pages, and they begin with the stem.  Once the cursor
is null, each key that begins with the stem and was there whenever a page was read has been told
exactly once.  If nothing was written in between, there are no more pages than such keys, or one
page if there are none.
-/
theorem traversal_tells_each_key_once {s : Settings} {board : Board}
    (hboard : Board.ofSettings s = .ok board) {stem : String} {legs : List Leg}
    {pages : List PageRead} (hpages : readings board .empty legs = pages)
    (hfollows : Follows stem none pages)
    (hadmits : ∀ p ∈ pages, board.guard.admits p.request.headers = true)
    (hread : ∀ p ∈ pages, ∀ key value, stem.toList <+: key.toList → p.table.get? key = some value →
      ∃ r, Record.decode value = .ok r) :
    (∀ p ∈ pages, p.answer.status = 200 ∧
      (p.answer.cursor? = some .null ∨ ∃ c, p.answer.cursor? = some (.string c) ∧
        ∀ path, (Http.Target.mk path ("cursor=" ++ c)).fields = [("cursor", c)]) ∧
      ∀ v ∈ p.answer.records, ∃ key, v.member? "key" = some (.string key) ∧
        ∀ g, Asks "GET" key g → board.guard.admits g.headers = true →
          (board.answer .direct p.table g).2.status = 200 ∧
          (board.answer .direct p.table g).2.told? = some v) ∧
    ((toldKeys pages).map Utf8.encode).Pairwise (· < ·) ∧
    (∀ key ∈ toldKeys pages, stem.toList <+: key.toList) ∧
    ((∃ p, pages.getLast? = some p ∧ p.answer.cursor? = some .null) →
      ∀ key : String, stem.toList <+: key.toList → (∀ p ∈ pages, (p.table.get? key).isSome = true) →
        (toldKeys pages).count key = 1) ∧
    ∀ t, (∀ p ∈ pages, p.table = t) →
      pages.length ≤ max 1 (t.keys.filter (Table.begins stem)).length := by
  have hknown : ∀ p ∈ pages, IsRead board stem p := by
    intro p hp
    obtain ⟨hanswer, hstamped⟩ := stamped_of_mem_readings Table.holds_empty (hpages ▸ hp)
    exact ⟨hanswer, hstamped, hread p hp, hadmits p hp⟩
  have hshows : Shows stem none pages := shows_of_follows hboard hfollows rfl nofun hknown
  refine ⟨fun p hp => ?_, ?_, fun key hkey => (hshows.mem_run hkey).1, ?_, fun t hsame => ?_⟩
  · obtain ⟨size, after, hpage⟩ := hshows.exists_page hp
    refine ⟨hpage.tells.status, ?_, fun v hv =>
      hpage.tells.told_of_mem (hknown p hp).stamped board hv⟩
    rw [hpage.tells.cursor]
    cases hcursor : (p.table.page stem size after).cursor with
    | none => exact .inl rfl
    | some c =>
      obtain ⟨key, rfl, -⟩ := Table.exists_parts_of_cursor hpage.size_pos hcursor
      exact .inr ⟨_, rfl, fun path => fields_of_cursor path key⟩
  · exact List.pairwise_map.2 (hshows.sorted.imp Utf8.encode_lt_encode)
  · intro hdone key hstem hpresent
    have hmem : key ∈ toldKeys pages := by
      refine hshows.mem_of_present hdone hstem nofun fun p hp => ?_
      obtain ⟨value, hvalue⟩ := Option.isSome_iff_exists.1 (hpresent p hp)
      exact List.mem_map.2 ⟨(key, value), Keyed.mem_of_get? hvalue, rfl⟩
    have hnodup : (toldKeys pages).Nodup := by
      refine hshows.sorted.imp fun hlt heq => ?_
      rw [heq] at hlt
      exact String.lt_irrefl _ hlt
    rw [hnodup.count, if_pos hmem]
  · have hkeys : t.keys.filter (Table.begins stem) = t.run stem none := by
      rw [Table.run_eq_filter]
      exact List.filter_congr fun key _ => (Bool.and_true _).symm
    rw [hkeys]
    exact hshows.length_le hsame

/-- A record without fields that is put under the key `b`, with the secret `k`. -/
def otherPut (now : Int) : Request := carrying "k" "PUT" "/state/b" Record.empty.encode now

/-- Two records that are put leave a table that can be read. -/
theorem table_of_two_puts {board : Board} (hboard : board.IsDefault "k") :
    ∃ t : Table, (board.run .direct .empty [smallPut 5, otherPut 6]).1 = t ∧ t.IsReadable "" ∧
      t.keys = ["a", "b"] := by
  obtain ⟨-, hfirst⟩ := answer_of_smallPut (t := .empty) hboard 5 rfl
  have hwithin : (Record.empty.stamp "a" none (clockSeconds 5)).toValue.Within Json.maxDepth :=
    Record.within_stamp "a" (clockSeconds 5) Record.within_empty nofun
  generalize Record.empty.stamp "a" none (clockSeconds 5) = first at hfirst hwithin
  have hlength : (otherPut 6).body.length ≤ board.limits.body := by
    rw [hboard.limits]
    exact (by decide : Record.empty.encode.length ≤ 33554432)
  have habsent : (Table.empty.insert "a" first.encode).get? "b" = none := by
    rw [Table.get?_insert, if_neg (by decide)]
    rfl
  have hput : Asks "PUT" "b" (otherPut 6) :=
    ⟨rfl, "b", (by decide : Resource.ofTarget (Http.Target.ofText "/state/b") = _), rfl⟩
  obtain ⟨-, hsecond⟩ := answer_of_put hput (hboard.admits_carrying _ _ _ _) hlength decode_empty
    (Store.getRecord_of_absent habsent)
  have hwithin' : (Record.empty.stamp "b" none (clock (otherPut 6))).toValue.Within Json.maxDepth :=
    Record.within_stamp "b" (clock (otherPut 6)) Record.within_empty nofun
  generalize Record.empty.stamp "b" none (clock (otherPut 6)) = second at hsecond hwithin'
  refine ⟨_, rfl, ?_, ?_⟩
  · rw [run_cons, run_cons, run_nil, hfirst, hsecond]
    exact ((Table.isReadable_empty "").insert hwithin "a").insert hwithin' "b"
  · rw [run_cons, run_cons, run_nil, hfirst, hsecond]
    rfl

/-- A request for a page of one record, from behind a key or from the front, is answered with it. -/
theorem tellsPage_of_fields {board : Board} (hboard : board.IsDefault "k") {t : Table}
    (hread : t.IsReadable "") {uri : String} (now : Int) (after : Option String)
    (hafter : after ≠ some "") (hresource : Resource.ofTarget (Http.Target.ofText uri) = .records)
    (hfields : (Http.Target.ofText uri).fields =
      ("limit", "1") :: ((after.map Store.Cursor.encode).map ("cursor", ·)).toList) :
    AsksPage "" (after.map Store.Cursor.encode) (carrying "k" "GET" uri [] now) ∧
      TellsPage t (t.page "" 1 after)
        (board.answer .direct t (carrying "k" "GET" uri [] now)).2 := by
  have hasks : AsksPage "" (after.map Store.Cursor.encode) (carrying "k" "GET" uri [] now) := by
    refine ⟨rfl, hresource, ?_, ?_, ?_⟩
    · show repeated? [] (Http.Target.ofText uri).fields = none
      rw [hfields]
      cases after <;> simp [repeated?, listingFields]
    · show (queryField? "prefix" (Http.Target.ofText uri).fields).getD "" = ""
      rw [hfields]
      cases after <;> simp [queryField?]
    · show queryField? "cursor" (Http.Target.ofText uri).fields = _
      rw [hfields]
      cases after <;> simp [queryField?]
  have hsize : pageSize board (queryField? "limit" (Http.Target.ofText uri).fields) = .ok 1 := by
    have hone : ({} : Limits).pageSize? (some "1") = some 1 := by decide
    unfold pageSize
    rw [hboard.limits, hfields, queryField?, List.find?_cons_of_pos (by simp), Option.map_some,
      hone]
  exact ⟨hasks, tellsPage_of_asksPage hsize hafter hread hasks (hboard.admits_carrying _ _ _ _)⟩

/-- Two records on two pages. -/
theorem two_pages_tell_each_key_once :
    ∃ (board : Board) (pages : List PageRead),
      Board.ofSettings { ({} : Settings) with apiKey := some "k" } = .ok board ∧
      readings board .empty
        [⟨[smallPut 5, otherPut 6], carrying "k" "GET" "/state?limit=1" [] 7⟩,
          ⟨[], carrying "k" "GET" "/state?limit=1&cursor=61" [] 8⟩] = pages ∧
      pages.length = 2 ∧ (toldKeys pages).count "a" = 1 ∧ (toldKeys pages).count "b" = 1 := by
  obtain ⟨board, hboard⟩ := exists_board "k" (by decide)
  obtain ⟨t, htable, hread, hkeys⟩ := table_of_two_puts hboard
  have hfields : (Http.Target.ofText "/state?limit=1").fields = [("limit", "1")] ∧
      (Http.Target.ofText "/state?limit=1&cursor=61").fields =
        [("limit", "1"), ("cursor", "61")] := by
    decide +kernel
  obtain ⟨hfirst, htells⟩ := tellsPage_of_fields hboard hread 7 none nofun
    (by decide) hfields.1
  obtain ⟨hnext, htells'⟩ := tellsPage_of_fields hboard hread 8 (some "a")
    (by decide) (by decide) hfields.2
  have hadmitted := hboard.admits_carrying "GET" "/state?limit=1" [] 7
  have hadmitted' := hboard.admits_carrying "GET" "/state?limit=1&cursor=61" [] 8
  generalize carrying "k" "GET" "/state?limit=1" [] 7 = r at *
  generalize carrying "k" "GET" "/state?limit=1&cursor=61" [] 8 = r' at *
  have hpages : readings board .empty [⟨[smallPut 5, otherPut 6], r⟩, ⟨[], r'⟩] =
      [⟨t, r, (board.answer .direct t r).2⟩, ⟨t, r', (board.answer .direct t r').2⟩] := by
    simp only [readings, htable, run_nil, table_of_asksPage board .direct t hfirst]
  have hcursor : t.page "" 1 none = ⟨["a"], some "61"⟩ := by
    unfold Table.page Table.run
    rw [hkeys]
    decide
  have hcursor' : t.page "" 1 (some "a") = ⟨["b"], none⟩ := by
    unfold Table.page Table.run
    rw [hkeys]
    decide
  rw [hcursor] at htells
  rw [hcursor'] at htells'
  have heach : ∀ p ∈ [(⟨t, r, (board.answer .direct t r).2⟩ : PageRead),
      ⟨t, r', (board.answer .direct t r').2⟩],
      p.table = t ∧ board.guard.admits p.request.headers = true := by
    simp [hadmitted, hadmitted']
  obtain ⟨-, -, -, honce, -⟩ := traversal_tells_each_key_once hboard.settings hpages
    (.next hfirst htells.cursor (.last hnext)) (fun p hp => (heach p hp).2)
    fun p hp key value hstem hvalue => hread key value hstem ((heach p hp).1 ▸ hvalue)
  have hpresent : ∀ key ∈ ["a", "b"], (t.get? key).isSome = true := by
    intro key hkey
    obtain ⟨value, hvalue⟩ := Table.exists_value (hkeys ▸ hkey)
    rw [hvalue]
    rfl
  have htold := fun key hkey => honce ⟨_, rfl, htells'.cursor⟩ key List.nil_prefix fun p hp =>
    (heach p hp).1 ▸ hpresent key hkey
  exact ⟨board, _, hboard.settings, hpages, rfl, htold "a" (by decide), htold "b" (by decide)⟩

end RecordBoard.Board
