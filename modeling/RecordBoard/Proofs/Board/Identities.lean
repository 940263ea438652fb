import RecordBoard.Proofs.Board.Assigned
import RecordBoard.Proofs.Board.Commute
import RecordBoard.Proofs.Board.ReadBack

/-!
# Records of their own

A record that names no key goes where its type and its id say.  So records with other types or ids
go elsewhere, and writing them leaves it alone, as long as their pairs do not happen to make the
same key: for that, one of the two types must hold a colon that the other one does not.

This is said here of the requests in which clients bring records without keys: those that make a
record, and those that bring many at once.

## Main definitions

* `Submits` — a request brings a record to be written.

## Main results

* `exists_submits_of_addressed` — such requests are about the keys that their records ask for.
* `get?_run_of_other_keys` — any number of them leaves a record alone with which theirs share no
  key.
* `derived_keys_are_told_apart` — which records ask for the same key, and what that means for a run.
* `colons_share_a_key` — two records with colons, one of which takes the place of the other.
-/

namespace RecordBoard.Board

open Json (Value)
open Store (Backend Table)
open Http (Request)
open Record (keyPrefix?)

/-- A request to write many records. -/
def AsksToSync (r : Request) : Prop := r.method = "POST" ∧ Resource.ofTarget r.target = .sync

/-- A request in which clients bring records; the random octets, if it has any, are four. -/
structure IsSubmission (r : Request) : Prop where
  /-- It makes a record or brings many. -/
  asks : AsksToCreate r ∨ AsksToSync r
  /-- There are four random octets, or none. -/
  random : ∀ octets, r.random = some octets → octets.length = 4

/-- A request brings a record to be written. -/
inductive Submits (r : Request) : Record → Prop
  /-- It is to be made, and has what was missing. -/
  | create {asked : Record} {key : String} {record : Record} (hcreate : AsksToCreate r)
      (hasked : Record.decode r.body = .ok asked)
      (hassigned : assigned r.random asked = .ok (key, record)) :
      Submits r record
  /-- It is one of many. -/
  | sync {items : List Value} {v : Value} {record : Record} (hsync : AsksToSync r)
      (hitems : SyncBody.decode r.body = .ok items) (hv : v ∈ items)
      (hrecord : Record.ofValue? v = some record) : Submits r record

theorem IsSubmission.isWrite {r : Request} (h : IsSubmission r) : IsWrite r := by
  unfold IsWrite
  rcases h.asks with ⟨hmethod, hresource⟩ | ⟨hmethod, hresource⟩
  · rw [hresource, hmethod]
    trivial
  · rw [hresource, hmethod]
    trivial

/-- Such requests are about the keys that their records ask for. -/
theorem exists_submits_of_addressed {board : Board} {r : Request} (hr : IsSubmission r)
    {key : String} (h : key ∈ addressed board r) :
    ∃ record, Submits r record ∧ record.derivedKey? "task" = some key := by
  unfold addressed at h
  rcases hr.asks with hcreate | hsync
  · rw [hcreate.2, hcreate.1] at h
    obtain ⟨⟨key', record⟩, hdraft, rfl⟩ := List.mem_map.1 h
    obtain ⟨body, hbody, hdraft⟩ := exists_of_bind (ok_of_mem_toList hdraft)
    obtain ⟨asked, hasked, hdraft⟩ := exists_of_bind hdraft
    have hassigned := ok_of_mapError hdraft
    exact ⟨record, .create hcreate (eq_body_of_bodyOf hbody ▸ ok_of_mapError hasked) hassigned,
      derivedKey?_of_assigned hassigned hr.random⟩
  · rw [hsync.2, hsync.1] at h
    obtain ⟨⟨key', record⟩, hmem, rfl⟩ := List.mem_map.1 h
    obtain ⟨items, v, hdecode, hv, hrecord, hkey⟩ := exists_of_mem_syncDrafts hmem
    exact ⟨record, .sync hsync hdecode hv hrecord, hkey⟩

/-- Any number of such requests leaves a record alone with which theirs share no key. -/
theorem get?_run_of_other_keys {board : Board} {rs : List Request} (hrs : ∀ r ∈ rs, IsSubmission r)
    {entityType id : String} (hothers : ∀ r ∈ rs, ∀ record, Submits r record → record.key? = none ∧
      ∀ entityType' id', record.IsIdentity entityType' id' →
      ¬ SharesKey entityType id entityType' id')
    (t : Table) :
    (board.run .direct t rs).1.get? (composedKey entityType id) =
      t.get? (composedKey entityType id) := by
  apply run_induction board .direct rs
    (P := fun new => new.get? (composedKey entityType id) = t.get? (composedKey entityType id)) rfl
  intro new r hr hnew
  rw [(localTo_answer board (hrs r hr).isWrite).frame, hnew]
  intro hmem
  obtain ⟨record, hsubmits, hderived⟩ := exists_submits_of_addressed (hrs r hr) hmem
  obtain ⟨hunnamed, hapart⟩ := hothers r hr record hsubmits
  obtain ⟨entityType', id', hidentity, hkey⟩ := (Record.derivedKey?_eq_some_iff hunnamed).1 hderived
  exact hapart entityType' id' hidentity (composedKey_eq_iff.1 hkey)

/--
**Records without keys are told apart by their types and ids, as far as colons allow.**  Let two
records name no key, and let each be told apart by a type and an id, the type `task` standing in
where there is none.

* They ask for the same key if and only if the two pairs are the same, or one of them cuts the key
  at an earlier colon: then the type of the other is its own with a colon and some text behind it,
  and its own id is that text with a colon and the id of the other behind it.  If equally many
  colons are in the two types, such as none, this does not happen.
* Any run of requests that make records or bring many at once leaves what is under the key of the
  first record, if all that they bring name no keys and share none with it.
* What is in front of the first colon of the key is what is in front of the first colon of the type.
  So it is the type if and only if there is no colon in it.
-/
theorem derived_keys_are_told_apart {r r' : Record} {entityType id entityType' id' : String}
    (h : r.IsIdentity entityType id) (h' : r'.IsIdentity entityType' id') :
    (r.derivedKey? "task" = r'.derivedKey? "task" ↔ SharesKey entityType id entityType' id') ∧
    (entityType.toList.count ':' = entityType'.toList.count ':' →
      (r.derivedKey? "task" = r'.derivedKey? "task" ↔ entityType = entityType' ∧ id = id')) ∧
    ∃ key, r.derivedKey? "task" = some key ∧
      (∀ (board : Board) (t : Table) (rs : List Request), (∀ q ∈ rs, IsSubmission q) →
        (∀ q ∈ rs, ∀ record, Submits q record → record.key? = none ∧
          ∀ otherType otherId, record.IsIdentity otherType otherId →
            ¬ SharesKey entityType id otherType otherId) →
        (board.run .direct t rs).1.get? key = t.get? key) ∧
      (∀ front, keyPrefix? key = some front ↔ front ≠ "" ∧ ':' ∉ front.toList ∧
        (entityType = front ∨ ∃ rest, entityType = front ++ ":" ++ rest)) ∧
      (keyPrefix? key = some entityType ↔ ':' ∉ entityType.toList) := by
  have hkeys : r.derivedKey? "task" = r'.derivedKey? "task" ↔
      composedKey entityType id = composedKey entityType' id' := by
    rw [h.derivedKey?_eq, h'.derivedKey?_eq, Option.some_inj]
  refine ⟨hkeys.trans composedKey_eq_iff,
    fun hcount => hkeys.trans (composedKey_eq_iff_of_count hcount),
    composedKey entityType id, h.derivedKey?_eq, fun board t rs hrs hothers => ?_,
    fun front => ?_, ?_⟩
  · exact get?_run_of_other_keys hrs hothers t
  · exact keyPrefix?_composedKey_eq_some_iff
  · exact keyPrefix?_composedKey_eq_self_iff h.ne_empty

/-! ## Plain types, and types with colons -/

/-- What tells the record of a text apart. -/
def viewsOf? (body : String) : Option (Option String × String × Option String) :=
  (Record.decode (Utf8.encode body)).toOption.map fun r =>
  (r.key?, r.entityType?.getD "task", r.id?)

theorem exists_of_viewsOf? {body entityType id : String}
    (h : viewsOf? body = some (none, entityType, some id)) :
    ∃ r, Record.decode (Utf8.encode body) = .ok r ∧ r.IsIdentity entityType id := by
  obtain ⟨r, hdecoded, hviews⟩ := Option.map_eq_some_iff.1 h
  simp only [Prod.mk.injEq] at hviews
  exact ⟨r, Record.decode_of_toOption hdecoded, Record.isIdentity_iff.2 hviews⟩

theorem isSubmission_smallCreate (body : String) (now : Int) :
    IsSubmission (smallCreate none body now) where
  asks := .inl (asksToCreate_smallCreate none body now)
  random _ hoctets := by cases hoctets

section Small

variable {body entityType id : String} {asked : Record}
  (hasked : Record.decode (Utf8.encode body) = .ok asked)
  (hidentity : asked.IsIdentity entityType id)

include hasked hidentity

/-- The request to make the record of a text brings a record with the type and the id in the
text. -/
theorem isIdentity_of_submits {now : Int} {record : Record}
    (h : Submits (smallCreate none body now) record) :
    record.IsIdentity entityType id := by
  have hcreate := asksToCreate_smallCreate none body now
  cases h with
  | create _ hasked' hassigned =>
    obtain rfl := Except.ok.inj (hasked.symm.trans hasked')
    have hdraft := hassigned.symm.trans (assigned_of_isIdentity _ hidentity)
    obtain rfl := congrArg Prod.snd (Except.ok.inj hdraft)
    exact hidentity.completed
  | sync hsync =>
    rw [AsksToSync, hcreate.2] at hsync
    cases hsync.2

theorem draftOf?_of_isIdentity (random : Option Bytes) :
    draftOf? random body = some (composedKey entityType id, asked.completed id) := by
  unfold draftOf?
  rw [hasked]
  show (assigned random asked).toOption = _
  rw [assigned_of_isIdentity random hidentity]
  rfl

end Small

/-- A number and a text that looks like it, under two types, are left alone by each other. -/
theorem plain_types_are_told_apart :
    ∃ (board : Board) (task deploy : Record),
      Board.ofSettings { ({} : Settings) with apiKey := some "k" } = .ok board ∧
      Record.decode (Utf8.encode "\x7b\"id\":7\x7d") = .ok task ∧
      Record.decode (Utf8.encode "\x7b\"id\":\"7\",\"type\":\"deploy\"\x7d") = .ok deploy ∧
      task.derivedKey? "task" = some "task:7" ∧ keyPrefix? "task:7" = some "task" ∧
      deploy.derivedKey? "task" ≠ some "task:7" ∧
      ∀ (t : Table) (now : Int),
        (board.run .direct t
            [smallCreate none "\x7b\"id\":\"7\",\"type\":\"deploy\"\x7d" now]).1.get? "task:7" =
          t.get? "task:7" := by
  obtain ⟨task, htask, hidentity⟩ :=
    exists_of_viewsOf?
      (by decide +kernel : viewsOf? "\x7b\"id\":7\x7d" = some (none, "task", some "7"))
  obtain ⟨deploy, hdeploy, hidentity'⟩ := exists_of_viewsOf? (by decide +kernel :
    viewsOf? "\x7b\"id\":\"7\",\"type\":\"deploy\"\x7d" = some (none, "deploy", some "7"))
  obtain ⟨board, hboard⟩ := exists_board "k" (by decide)
  obtain ⟨-, hplain, key, hkey, hrun, -, hfront⟩ := derived_keys_are_told_apart hidentity hidentity'
  obtain rfl : key = "task:7" := Option.some.inj (hkey.symm.trans hidentity.derivedKey?_eq)
  have hapart : deploy.derivedKey? "task" ≠ some "task:7" := by
    intro hsame
    exact absurd ((hplain (by decide)).1 (hkey.trans hsame.symm)).1 (by decide)
  refine ⟨board, task, deploy, hboard.settings, htask, hdeploy, hkey, hfront.2 (by decide), hapart,
    fun t now => hrun board t _ ?_ ?_⟩
  · intro q hq
    obtain rfl := List.mem_singleton.1 hq
    exact isSubmission_smallCreate _ now
  · intro q hq record hsubmits
    obtain rfl := List.mem_singleton.1 hq
    have hbrought := isIdentity_of_submits hdeploy hidentity' hsubmits
    refine ⟨Record.key?_eq_none_iff.2 hbrought.unnamed, fun otherType otherId hother => ?_⟩
    obtain ⟨rfl, rfl⟩ := hbrought.unique hother
    exact mt composedKey_eq_iff.2 (by decide)

/-- A type with a colon, -/
def colonBefore : String := "\x7b\"entity_type\":\"a:b\",\"id\":\"c\"\x7d"

/-- and an id with one. -/
def colonBehind : String := "\x7b\"entity_type\":\"a\",\"id\":\"b:c\"\x7d"

/-- What is to be told of the place that they share, when the one is made and when the other is. -/
def toldOfBoth? : Option (String × String) := do
  let (key, before) ← draftOf? none colonBefore
  let (_, behind) ← draftOf? none colonBehind
  let first := (before.stamp key none (clockSeconds 5)).reread
  return (first.toValue.text, (behind.stamp key (some first) (clockSeconds 7)).reread.toValue.text)

/-- The records are told apart by other types and ids, and still the second takes the place of the
first. -/
theorem colons_share_a_key :
    ∃ (board : Board) (before behind : Record) (made replaced : Table),
      Board.ofSettings { ({} : Settings) with apiKey := some "k" } = .ok board ∧
      Record.decode (Utf8.encode colonBefore) = .ok before ∧ before.IsIdentity "a:b" "c" ∧
      Record.decode (Utf8.encode colonBehind) = .ok behind ∧ behind.IsIdentity "a" "b:c" ∧
      before.derivedKey? "task" = some "a:b:c" ∧ behind.derivedKey? "task" = some "a:b:c" ∧
      keyPrefix? "a:b:c" = some "a" ∧
      made = (board.answer .direct .empty (smallCreate none colonBefore 5)).1 ∧
      replaced = (board.answer .direct made (smallCreate none colonBehind 7)).1 ∧
      (board.answer .direct made (carrying "k" "GET" "/state/a:b:c" [] 6)).2.body =
        "\x7b\"created_at\":5,\"entity_type\":\"a:b\",\"id\":\"c\",\"key\":\"a:b:c\"," ++
          "\"updated_at\":5\x7d" ∧
      (board.answer .direct replaced (carrying "k" "GET" "/state/a:b:c" [] 8)).2.body =
        "\x7b\"created_at\":5,\"entity_type\":\"a\",\"id\":\"b:c\",\"key\":\"a:b:c\"," ++
          "\"updated_at\":7\x7d" := by
  obtain ⟨before, hbefore, hidentity⟩ :=
    exists_of_viewsOf? (by decide +kernel : viewsOf? colonBefore = some (none, "a:b", some "c"))
  obtain ⟨behind, hbehind, hidentity'⟩ :=
    exists_of_viewsOf? (by decide +kernel : viewsOf? colonBehind = some (none, "a", some "b:c"))
  obtain ⟨board, hboard⟩ := exists_board "k" (by decide)
  have hdraft := draftOf?_of_isIdentity hbefore hidentity none
  have hdraft' := draftOf?_of_isIdentity hbehind hidentity' none
  have hasks (now : Int) : Asks "GET" "a:b:c" (carrying "k" "GET" "/state/a:b:c" [] now) :=
    ⟨rfl, "a:b:c", (by decide : Resource.ofTarget (Http.Target.ofText "/state/a:b:c") = _),
      ok_of_mem_toList (by decide +kernel)⟩
  obtain ⟨-, -, -, hfound⟩ := answer_of_smallCreate hboard 5 (by decide +kernel) hdraft
    (rfl : Backend.direct.getRecord Table.empty "a:b:c" = .ok none)
  obtain ⟨-, -, -, hfound'⟩ := answer_of_smallCreate hboard 7 (by decide +kernel) hdraft' hfound
  have hfront : keyPrefix? "a:b:c" = some "a" :=
    Record.keyPrefix?_eq_some_iff.2 ⟨by decide, by decide, "b:c", rfl⟩
  have htold : toldOfBoth? = some
      ("\x7b\"created_at\":5,\"entity_type\":\"a:b\",\"id\":\"c\",\"key\":\"a:b:c\"," ++
          "\"updated_at\":5\x7d",
        "\x7b\"created_at\":5,\"entity_type\":\"a\",\"id\":\"b:c\",\"key\":\"a:b:c\"," ++
          "\"updated_at\":7\x7d") := by
    decide +kernel
  unfold toldOfBoth? at htold
  rw [hdraft, hdraft'] at htold
  obtain ⟨hfirst, hsecond⟩ := Prod.mk.inj (Option.some.inj htold)
  refine ⟨board, before, behind, _, _, hboard.settings, hbefore, hidentity, hbehind, hidentity',
    hidentity.derivedKey?_eq, hidentity'.derivedKey?_eq, hfront, rfl, rfl, ?_, ?_⟩
  · rw [(answer_of_get (hasks 6) (hboard.admits_carrying _ _ _ _) hfound).2]
    exact hfirst
  · rw [(answer_of_get (hasks 8) (hboard.admits_carrying _ _ _ _) hfound').2]
    exact hsecond

end RecordBoard.Board
