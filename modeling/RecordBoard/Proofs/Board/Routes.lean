import RecordBoard.Proofs.Board.Acknowledged
import RecordBoard.Proofs.Http.Percent

/-!
# Three ways to write a record

A record that says where it goes can be put there by its path, brought to be made, or brought in a
sync. The three requests find the key in different ways: one reads it from the path, one asks for
the record's own key and fills in what is missing, one asks without filling in.  They read the body
in different ways too, within one more or two more brackets in a sync.

For a record that names its key, or both its type and its id, nothing is left to fill in, and they
come to the same draft.  From there on all three write alike, so they succeed together, and then
leave the same table, or they fail together.

## Main definitions

* `Names` — a record that says where it goes.

## Main results

* `assigned_of_names`, `syncDraft_of_names` — nothing is filled in, so the three requests come to
  the same draft.
* `write_routes_agree` — so they do the same.
-/

namespace RecordBoard.Board

open Json (Value SpellsWithin)
open Store (Backend Table)
open Http (Request Answer Target percentEncode)

/-! ## Drafts -/

/-- A record says that it goes under a key: by its key, or if it has none, by its type and its
id. -/
def Names (record : Record) (key : String) : Prop :=
  record.key? = some key ∨
    (record.key? = none ∧ ∃ entityType id, record.entityType? = some entityType ∧
    record.id? = some id ∧ key = composedKey entityType id)

section Names

variable {record : Record} {key : String} (h : Names record key)

include h

theorem assigned_of_names (random : Option Bytes) : assigned random record = .ok (key, record) := by
  unfold assigned
  rcases h with hkey | ⟨hkey, entityType, id, htype, hid, rfl⟩
  · rw [hkey]
  · rw [hkey, htype]
    dsimp only
    rw [hid]

theorem syncDraft_of_names : syncDraft? record.toValue = some (key, record) := by
  have hderived : record.derivedKey? defaultType = some key := by
    unfold Record.derivedKey?
    rcases h with hkey | ⟨hkey, entityType, id, htype, hid, rfl⟩
    · rw [hkey]
      rfl
    · rw [hkey, htype, hid]
      rfl
  have hrecord : Record.ofValue? record.toValue = some record := rfl
  unfold syncDraft?
  rw [hrecord]
  show (record.derivedKey? defaultType >>= fun key => pure (key, record)) = _
  rw [hderived]
  rfl

theorem ne_empty_of_names : key ≠ "" := by
  rcases h with hkey | ⟨-, entityType, id, -, -, rfl⟩
  · exact key_ne_empty_of_key? hkey
  · exact composedKey_ne_empty entityType id

end Names

/-- An object that a text spells is a record. -/
theorem decode_of_spellsWithin {room : Nat} {body : Bytes} {record : Record}
    (h : SpellsWithin room body record.toValue) (hroom : room ≤ Json.maxDepth) :
    Record.decode body = .ok record := by
  unfold Record.decode
  rw [Json.decodeObject_of_decode (Json.decode_of_spellsWithin h hroom)]
  rfl

/-! ## The three requests -/

/-- The answer acknowledges one key, and the request leaves a given table. -/
def Succeeds (board : Board) (t : Table) (key : String) (new : Table) (r : Request) : Prop :=
  Acknowledges key r (board.answer .direct t r).2 ∧ (board.answer .direct t r).1 = new

/-- The answer acknowledges no key, and the request leaves the table alone. -/
def Fails (board : Board) (t : Table) (r : Request) : Prop :=
  (∀ key, ¬ Acknowledges key r (board.answer .direct t r).2) ∧ (board.answer .direct t r).1 = t

section Answers

variable {board : Board} {t : Table} {r : Request} {record : Record} {key : String}

/-- What a request comes to is told by its answer. -/
theorem told_of_carried {new : Table} {reply : Reply}
    (hadmits : board.guard.admits r.headers = true) (hmethod : r.method ∈ ["PUT", "POST"])
    (h : carryOut board .direct t r = (new, .ok reply)) :
    (board.answer .direct t r).2.status = reply.status ∧
      (board.answer .direct t r).2.body = reply.body.text ∧ (board.answer .direct t r).1 = new := by
  have hoptions : r.method ≠ "OPTIONS" := by
    intro heq
    simp [heq] at hmethod
  have hhead : r.method ≠ "HEAD" := by
    intro heq
    simp [heq] at hmethod
  have houtcome : outcome board .direct t r = (new, .ok reply) := by
    rw [outcome_of_admitted board _ t hadmits, h]
  obtain ⟨hstatus, hbody⟩ := answer_of_reply hoptions (congrArg Prod.snd houtcome)
  exact ⟨hstatus, hbody hhead, (answer_of_carried hoptions hadmits h).2⟩

theorem fails_of_carried {e : Store.Trouble} (hadmits : board.guard.admits r.headers = true)
    (hmethod : r.method ≠ "OPTIONS") (h : carryOut board .direct t r = (t, .error (.ofTrouble e))) :
    Fails board t r ∧ (board.answer .direct t r).2.status = 500 := by
  obtain ⟨hstatus, htable⟩ := answer_of_halted hmethod hadmits h
  rw [Halt.status_ofTrouble] at hstatus
  refine ⟨⟨fun key hack => ?_, htable⟩, hstatus⟩
  have hsuccess := hack.status
  rw [hstatus] at hsuccess
  simp at hsuccess

/-! One by one: the record is put, -/

section Put

variable (hput : Asks "PUT" key r) (hadmits : board.guard.admits r.headers = true)
  (hlength : r.body.length ≤ board.limits.body) (hrecord : Record.decode r.body = .ok record)

include hput hadmits hlength hrecord

theorem put_succeeds {previous : Option Record}
    (hprevious : Backend.direct.getRecord t key = .ok previous) :
    Succeeds board t key (t.insert key (record.stamp key previous (clock r)).encode) r := by
  obtain ⟨hmethod, segment, hresource, hkey⟩ := hput
  have hcarried := carryOut_of_putMethod board t hmethod hresource
  rw [writeDraft_of_readable (putDraft_of_decode hkey hlength hrecord) hprevious] at hcarried
  obtain ⟨hstatus, hbody, htable⟩ := told_of_carried hadmits (by simp [hmethod]) hcarried
  exact ⟨.put hmethod hstatus ((tells_iff [("success", .boolean true)] (by simp) hbody key).2 rfl),
    htable⟩

theorem put_fails {e : Store.Trouble} (he : Backend.direct.getRecord t key = .error e) :
    Fails board t r ∧ (board.answer .direct t r).2.status = 500 := by
  obtain ⟨hmethod, segment, hresource, hkey⟩ := hput
  have hcarried := carryOut_of_putMethod board t hmethod hresource
  rw [writeDraft_of_unreadable (putDraft_of_decode hkey hlength hrecord) he] at hcarried
  exact fails_of_carried hadmits (by rw [hmethod]; decide) hcarried

end Put

/-! it is made, -/

theorem createDraft_of_names (hlength : r.body.length ≤ board.limits.body)
    (hrecord : Record.decode r.body = .ok record) (hkey : Names record key) :
    createDraft board r = .ok (key, record) :=
  createDraft_of_decode hlength hrecord (assigned_of_names hkey r.random)

section Create

variable (hmethod : r.method = "POST") (hresource : Resource.ofTarget r.target = .records)
  (hadmits : board.guard.admits r.headers = true) (hlength : r.body.length ≤ board.limits.body)
  (hrecord : Record.decode r.body = .ok record) (hkey : Names record key)

include hmethod hresource hadmits hlength hrecord hkey

theorem create_succeeds {previous : Option Record}
    (hprevious : Backend.direct.getRecord t key = .ok previous) :
    Succeeds board t key (t.insert key (record.stamp key previous (clock r)).encode) r := by
  obtain ⟨hstatus, hbody, htable⟩ := answer_of_create ⟨hmethod, hresource⟩ hadmits hlength hrecord
    (assigned_of_names hkey r.random) hprevious
  exact ⟨.create hmethod hstatus
    ((tells_iff [("success", .boolean true)] (by simp) hbody key).2 rfl), htable⟩

theorem create_fails {e : Store.Trouble} (he : Backend.direct.getRecord t key = .error e) :
    Fails board t r ∧ (board.answer .direct t r).2.status = 500 := by
  have hcarried := carryOut_of_createMethod board .direct t hmethod hresource
  rw [writeDraft_of_unreadable (createDraft_of_names hlength hrecord hkey) he] at hcarried
  exact fails_of_carried hadmits (by rw [hmethod]; decide) hcarried

end Create

/-! and it comes in a sync. -/

theorem syncAll_single (b : Backend) (now : UInt64) (v : Value) (t : Table) :
    syncAll b now [v] t = ((syncOne b now v t).1, (syncOne b now v t).2.map fun slot => [slot]) :=
  Store.Action.bind_pure_apply (syncOne b now v) (fun slot => [slot]) t

section Sync

variable (hmethod : r.method = "POST") (hresource : Resource.ofTarget r.target = .sync)
  (hadmits : board.guard.admits r.headers = true) (hlength : r.body.length ≤ board.limits.body)
  (hitems : HoldsBatch r.body [record.toValue]) (hkey : Names record key)

include hmethod hresource hadmits hlength hitems hkey

theorem sync_succeeds {previous : Option Record}
    (hprevious : Backend.direct.getRecord t key = .ok previous) :
    Succeeds board t key (t.insert key (record.stamp key previous (clock r)).encode) r := by
  have hcarried : carryOut board .direct t r =
    (t.insert key (record.stamp key previous (clock r)).encode,
      .ok (syncReply (clock r) [⟨some key, none⟩])) := by
    rw [carryOut_of_batch hmethod hresource hlength hitems, syncAll_single,
      syncOne_of_draft (syncDraft_of_names hkey), Store.Action.told, Store.upsert_of_ok hprevious]
    rfl
  obtain ⟨hstatus, hbody, htable⟩ := told_of_carried hadmits (by simp [hmethod]) hcarried
  exact ⟨(acknowledges_sync_iff hmethod hresource hstatus hbody).2
    ⟨_, List.mem_cons_self, rfl, rfl⟩, htable⟩

theorem sync_fails {e : Store.Trouble} (he : Backend.direct.getRecord t key = .error e) :
    Fails board t r ∧
      (board.answer .direct t r).2.told?.bind (Value.member? "synced") = some (.ofCount 0) := by
  cases e with
  | panic p =>
    obtain ⟨f, hf⟩ := Backend.isFailure_of_isFrom (b := .direct) trivial
      (Backend.direct.ends_getRecord t none key _ he)
    cases hf
  | failure f =>
    have hcarried : carryOut board .direct t r =
        (t, .ok (syncReply (clock r) [⟨some key, some f.message⟩])) := by
      rw [carryOut_of_batch hmethod hresource hlength hitems, syncAll_single,
        syncOne_of_draft (syncDraft_of_names hkey), Store.Action.told, Store.upsert_of_error he]
      rfl
    obtain ⟨hstatus, hbody, htable⟩ := told_of_carried hadmits (by simp [hmethod]) hcarried
    refine ⟨⟨fun other hack => ?_, htable⟩, told_synced hbody⟩
    obtain ⟨slot, hslot, hsuccess, -⟩ :=
      (acknowledges_sync_iff hmethod hresource hstatus hbody).1 hack
    rw [List.mem_singleton.1 hslot] at hsuccess
    cases hsuccess

end Sync

end Answers

/-! ## All together -/

/-- A path that spells a key in percent encoding asks for the record under it. -/
theorem asks_percentEncode {key method : String} (hkey : key ≠ "") {r : Request}
    (hmethod : r.method = method)
    (htarget : r.target = Target.ofText ("/state/" ++ percentEncode key)) : Asks method key r :=
  ⟨hmethod, percentEncode key, htarget ▸ ofTarget_percentEncode hkey, keyOf_percentEncode key⟩

/--
**The three ways to write a record agree.**  Take a body that spells a record with no more than 125
brackets open at once, and the key that the record names; the key is not empty, so it can be written
into a path.  A request that puts the body there, one that brings it to be made, and one that brings
it in a sync, bare or as the field of an object, at the same clock and each let through and not too
long, either all acknowledge the key and leave the same table, or none acknowledges anything and all
leave the table alone.
-/
theorem write_routes_agree (board : Board) (t : Table) {body : Bytes} {record : Record}
    {key : String} (hbody : SpellsWithin 125 body record.toValue)
    (hkey : Names record key) {p c s : Request} (hput : Asks "PUT" key p) (hputs : p.body = body)
    (hcreate : c.method = "POST" ∧ Resource.ofTarget c.target = .records) (hcreates : c.body = body)
    (hsync : s.method = "POST" ∧ Resource.ofTarget s.target = .sync)
    (hsyncs : s.body = Json.inList body ∨ s.body = Json.inObject "records" (Json.inList body))
    (hclock : p.now = c.now ∧ s.now = c.now)
    (hadmitted : ∀ r ∈ [p, c, s], board.guard.admits r.headers = true ∧
      r.body.length ≤ board.limits.body) :
    (∀ r : Request, r.method = "PUT" → r.target = Target.ofText ("/state/" ++ percentEncode key) →
      Asks "PUT" key r) ∧
    ((∃ new, ∀ r ∈ [p, c, s], Succeeds board t key new r) ∨
      ((∀ r ∈ [p, c, s], Fails board t r) ∧
        (∀ r ∈ [p, c], (board.answer .direct t r).2.status = 500) ∧
        (board.answer .direct t s).2.told?.bind (Value.member? "synced") = some (.ofCount 0))) := by
  have hrecord := decode_of_spellsWithin hbody (by decide)
  have hitems : HoldsBatch s.body [record.toValue] := by
    rcases hsyncs with heq | heq
    · exact heq ▸ .inList hbody (by decide)
    · exact heq ▸ .inObject hbody (by decide)
  have hclocks : clock p = clock c ∧ clock s = clock c := by
    unfold clock
    rw [hclock.1, hclock.2]
    exact ⟨rfl, rfl⟩
  simp only [List.forall_mem_cons, List.not_mem_nil, false_implies, implies_true,
    and_true] at hadmitted ⊢
  obtain ⟨⟨hp, hplength⟩, ⟨hc, hclength⟩, hs, hslength⟩ := hadmitted
  refine ⟨fun r hmethod htarget => asks_percentEncode (ne_empty_of_names hkey) hmethod htarget, ?_⟩
  cases hprevious : Backend.direct.getRecord t key with
  | ok previous =>
    refine .inl ⟨t.insert key (record.stamp key previous (clock c)).encode, ?_, ?_, ?_⟩
    · rw [← hclocks.1]
      exact put_succeeds hput hp hplength (hputs ▸ hrecord) hprevious
    · exact create_succeeds hcreate.1 hcreate.2 hc hclength (hcreates ▸ hrecord) hkey hprevious
    · rw [← hclocks.2]
      exact sync_succeeds hsync.1 hsync.2 hs hslength hitems hkey hprevious
  | error e =>
    have hputfails := put_fails hput hp hplength (hputs ▸ hrecord) hprevious
    have hcreatefails :=
      create_fails hcreate.1 hcreate.2 hc hclength (hcreates ▸ hrecord) hkey hprevious
    have hsyncfails := sync_fails hsync.1 hsync.2 hs hslength hitems hkey hprevious
    exact .inr
      ⟨⟨hputfails.1, hcreatefails.1, hsyncfails.1⟩, ⟨hputfails.2, hcreatefails.2⟩, hsyncfails.2⟩

/-- The record that says that it goes under the key `a`. -/
def named : Record := ⟨[("key", .string "a")]⟩

theorem within_named : named.toValue.Within 1 := by
  refine Value.within_object_iff.2 ⟨List.pairwise_singleton .., fun e he => ?_⟩
  rw [List.mem_singleton.1 he]
  exact Record.within_string "a" 0

theorem spellsWithin_named : SpellsWithin 1 named.encode named.toValue :=
  Json.spellsWithin_encode within_named

/-- It is brought to a table where it can be written. -/
theorem write_routes_agree_on_named :
    ∃ (board : Board) (p c s : Request),
      Board.ofSettings { ({} : Settings) with apiKey := some "k" } = .ok board ∧
      p = carrying "k" "PUT" "/state/a" named.encode 7 ∧
      c = carrying "k" "POST" "/state" named.encode 7 ∧
      s = carrying "k" "POST" "/sync" (Json.inList named.encode) 7 ∧
      ∃ new, ∀ r ∈ [p, c, s], Succeeds board .empty "a" new r := by
  obtain ⟨board, hboard⟩ := exists_board "k" (by decide)
  have hlimit : ∀ body : Bytes, body.length ≤ 33554432 → body.length ≤ board.limits.body := by
    rw [hboard.limits]
    exact fun _ h => h
  have hput : Asks "PUT" "a" (carrying "k" "PUT" "/state/a" named.encode 7) :=
    ⟨rfl, "a", (by decide : Resource.ofTarget (Target.ofText "/state/a") = _), rfl⟩
  have hadmitted : ∀ r ∈ [carrying "k" "PUT" "/state/a" named.encode 7,
      carrying "k" "POST" "/state" named.encode 7,
      carrying "k" "POST" "/sync" (Json.inList named.encode) 7],
      board.guard.admits r.headers = true ∧ r.body.length ≤ board.limits.body := by
    simp only [List.forall_mem_cons, List.not_mem_nil, false_implies, implies_true, and_true]
    exact ⟨⟨hboard.admits_carrying _ _ _ _, hlimit named.encode (by decide)⟩,
      ⟨hboard.admits_carrying _ _ _ _, hlimit named.encode (by decide)⟩,
      hboard.admits_carrying _ _ _ _, hlimit (Json.inList named.encode) (by decide)⟩
  obtain ⟨-, hagree⟩ :=
    write_routes_agree board .empty (c := carrying "k" "POST" "/state" named.encode 7)
    (s := carrying "k" "POST" "/sync" (Json.inList named.encode) 7)
    (spellsWithin_named.mono (by decide))
    (.inl rfl) hput rfl ⟨rfl, (by decide : Resource.ofTarget (Target.ofText "/state") = .records)⟩
      rfl
    ⟨rfl, (by decide : Resource.ofTarget (Target.ofText "/sync") = .sync)⟩ (.inl rfl)
      ⟨rfl, rfl⟩ hadmitted
  refine ⟨board, _, _, _, hboard.settings, rfl, rfl, rfl, ?_⟩
  rcases hagree with hsucceed | ⟨-, hfailed, -⟩
  · exact hsucceed
  · obtain ⟨hadmits, hlength⟩ := hadmitted _ List.mem_cons_self
    obtain ⟨hstatus, -⟩ := answer_of_put hput hadmits hlength
      (decode_of_spellsWithin spellsWithin_named (by decide))
      (Store.getRecord_of_absent (rfl : Table.empty.get? "a" = none))
    rw [hfailed _ List.mem_cons_self] at hstatus
    exact absurd hstatus (by decide)

end RecordBoard.Board
