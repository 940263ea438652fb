import RecordBoard.Proofs.Board.Commute
import RecordBoard.Proofs.Board.Stored
import RecordBoard.Proofs.Http.Percent

/-!
# The record that a path names

Four requests name a record by a segment of their path: it is read, put or deleted there, or its
status is put below it.  The segment spells the key, and any key that is not empty can be spelled,
in many ways: a character that could stand for itself may be written as its octets, with small or
capital digits, and a percent sign without two digits behind it stands for itself.

How the key is spelled makes no difference.  The path is cut before anything is decoded, so what a
segment decodes to can never part it; and of the segment nothing is used but the key that it spells.
So requests with different spellings of one key are interchangeable, and what each of them does is
said in terms of the key alone.  Requests with spellings of different keys have nothing to do with
each other, on whatever store they are made.

## Main definitions

* `Spells` — a segment of a path that spells a key.
* `IsAbout` — a request about the record that a segment names.
* `Respelled` — a request with the key in its path spelled in another way.
* `Reads`, `Puts`, `Deletes`, `Moves` — what such a request does to the record under a key.

## Main results

* `localTo_of_isAbout` — a request about a record looks at it and changes it, and no other.
* `run_of_respelled` — no run depends on how keys are spelled.
* `run_of_others` — requests about other records leave the record under a key as it is.
* `every_key_is_addressed` — all of this, with what each request does.
-/

namespace RecordBoard.Board

open Json (Value)
open Store (Backend Table LocalTo)
open Http (Request Answer Target percentEncode)

/-! ## Segments -/

/-- A segment of a path that spells a key. -/
structure Spells (segment key : String) : Prop extends IsSegment segment where
  /-- It is decoded to the octets of the key. -/
  decodes : Http.percentDecode (Utf8.encode segment) = Utf8.encode key

theorem spells_percentEncode {key : String} (h : key ≠ "") : Spells (percentEncode key) key :=
  ⟨isSegment_percentEncode h, Http.percentDecode_percentEncode key⟩

/-- It is taken for the key. -/
theorem Spells.keyOf {segment key : String} (h : Spells segment key) :
    Board.keyOf segment = .ok key := by
  unfold Board.keyOf
  rw [h.decodes, Utf8.decode_encode]

/-- Every key that was acknowledged and not withdrawn since can be spelled. -/
theorem exists_spells_of_isAcknowledged {board : Board} {rs : List Request} {key : String}
    (h : IsAcknowledged key (history board .empty rs)) : ∃ segment, Spells segment key := by
  refine ⟨percentEncode key, spells_percentEncode ?_⟩
  rintro rfl
  have hstamped := holds_isStamped board (t := .empty) Table.holds_empty rs
  rw [← present_iff_of_empty, absent_of_isStamped hstamped] at h
  cases h

/-! ## Requests -/

/-- What a path is for that ends in a segment. -/
def recordTarget (segment : String) : Target := Target.ofText ("/state/" ++ segment)

/-- What a path is for that goes on to the status. -/
def statusTarget (segment : String) : Target := Target.ofText ("/state/" ++ segment ++ "/status")

/-- The methods of requests about a whole record. -/
def recordMethods : List String := ["GET", "PUT", "DELETE"]

theorem mem_recordMethods_iff {method : String} :
    method ∈ recordMethods ↔ method = "GET" ∨ method = "PUT" ∨ method = "DELETE" := by
  simp [recordMethods]

/-- A request about the record that a segment names: it reads, puts or deletes it, or moves it to a
status. -/
def IsAbout (segment : String) (r : Request) : Prop :=
  (r.method ∈ recordMethods ∧ r.target = recordTarget segment) ∨
  (r.method = "PUT" ∧ r.target = statusTarget segment)

/-- The same request, with the key in its path possibly spelled in another way. -/
inductive Respelled : Request → Request → Prop
  /-- It is left alone. -/
  | same (r : Request) : Respelled r r
  /-- It is about a whole record. -/
  | record {segment segment' key : String} (h : Spells segment key) (h' : Spells segment' key)
    (r : Request)
      (hmethod : r.method ∈ recordMethods) :
      Respelled { r with target := recordTarget segment } { r with target := recordTarget segment' }
  /-- It moves a record. -/
  | status {segment segment' key : String} (h : Spells segment key) (h' : Spells segment' key)
    (r : Request)
      (hmethod : r.method = "PUT") :
      Respelled { r with target := statusTarget segment } { r with target := statusTarget segment' }

theorem Spells.asks {segment key : String} (h : Spells segment key) {r : Request}
    (htarget : r.target = recordTarget segment) : Asks r.method key r :=
  ⟨rfl, segment, htarget ▸ h.ofTarget_record, h.keyOf⟩

theorem Spells.asksToMove {segment key : String} (h : Spells segment key) {r : Request}
    (hmethod : r.method = "PUT") (htarget : r.target = statusTarget segment) : AsksToMove key r :=
  ⟨hmethod, segment, htarget ▸ h.ofTarget_status, h.keyOf⟩

/-! ## One record and no other -/

section Local

variable (board : Board) (b : Backend) {key : String} {r : Request}

theorem localTo_read {segment : String} (hkey : keyOf segment = .ok key) :
    LocalTo [key] (readRecord b segment) := by
  unfold readRecord
  rw [hkey, Store.Action.check_bind]
  refine (Store.localTo_getRecord b key calling).bind fun found => ?_
  cases found with
  | none => exact .pure (fail (.noRecord key))
  | some record => exact .pure (Except.ok (Reply.mk 200 record.toValue))

theorem localTo_of_asks (h : Asks r.method key r) (hmethod : r.method ∈ recordMethods) :
    LocalTo [key] fun t => board.answer b t r := by
  obtain ⟨-, segment, hresource, hkey⟩ := h
  have hkeys := toList_keyOf hkey
  have hcases := mem_recordMethods_iff.1 hmethod
  refine localTo_answer_of_carryOut board (by rcases hcases with h | h | h <;> simp [h]) ?_
  unfold carryOut
  rcases hcases with hmethod | hmethod | hmethod <;> rw [hresource, hmethod]
  · exact localTo_read b hkey
  · exact hkeys ▸ localTo_put board segment r
  · exact hkeys ▸ localTo_delete segment

theorem localTo_of_asksToMove (h : AsksToMove key r) :
    LocalTo [key] fun t => board.answer b t r := by
  obtain ⟨hmethod, segment, hresource, hkey⟩ := h
  have hkeys := toList_keyOf hkey
  refine localTo_answer_of_carryOut board (by rw [hmethod]; decide) ?_
  unfold carryOut
  rw [hresource, hmethod]
  exact hkeys ▸ localTo_move board segment r

/-- A request about a record looks at it and changes it, and no other. -/
theorem localTo_of_isAbout {segment : String} (h : Spells segment key) (hr : IsAbout segment r) :
    LocalTo [key] fun t => board.answer b t r := by
  rcases hr with ⟨hmethod, htarget⟩ | ⟨hmethod, htarget⟩
  · exact localTo_of_asks board b (h.asks htarget) hmethod
  · exact localTo_of_asksToMove board b (h.asksToMove hmethod htarget)

/-- A run of requests about other records leaves the record under a key as it is. -/
theorem run_of_others {rs : List Request}
    (h : ∀ r ∈ rs, ∃ segment other, Spells segment other ∧ other ≠ key ∧
    IsAbout segment r) (t : Table) : (board.run b t rs).1.get? key = t.get? key := by
  refine run_induction board b rs (P := fun new => new.get? key = t.get? key) rfl
    fun new r hr hnew => ?_
  obtain ⟨segment, other, hspells, hne, habout⟩ := h r hr
  rw [(localTo_of_isAbout board b hspells habout).frame new key (by simpa using hne.symm), hnew]

end Local

/-! ## Other spellings -/

/-- Requests with different targets are answered alike, if both are served and carried out alike. -/
theorem answer_of_target {board : Board} {b : Backend} {t : Table} {r : Request}
    {target target' : Target} (hserved : r.method ∈ (Resource.ofTarget target).methods ∧
      r.method ∈ (Resource.ofTarget target').methods)
    (hguarded : (Resource.ofTarget target).isGuarded = (Resource.ofTarget target').isGuarded)
    (hmethod : r.method ≠ "OPTIONS")
    (hcarried : carryOut board b t { r with target := target } =
      carryOut board b t { r with target := target' }) :
    board.answer b t { r with target := target } =
      board.answer b t { r with target := target' } := by
  have houtcome : outcome board b t { r with target := target } =
      outcome board b t { r with target := target' } := by
    unfold outcome
    dsimp only
    rw [hguarded, hcarried]
  have hanswer : ∀ result, answerOf (Resource.ofTarget target) r.method result =
      answerOf (Resource.ofTarget target') r.method result := by
    intro result
    unfold answerOf withMethods
    simp only [hserved.1, hserved.2, or_true, if_true, hguarded]
  rw [answer_of_method board b t (r := { r with target := target }) hmethod,
    answer_of_method board b t (r := { r with target := target' }) hmethod, houtcome]
  exact congrArg (fun a => (_, withOrigins board r a)) (hanswer _)

section Respelled

variable {board : Board} {b : Backend} {t : Table} {segment segment' : String}

section Targets

variable {r : Request} {target target' : Target} (hkey : keyOf segment = keyOf segment')

include hkey

/-- Of the segment that names a record nothing is used but the key that it spells, -/
theorem carryOut_of_record (hresource : Resource.ofTarget target = .record segment)
    (hresource' : Resource.ofTarget target' = .record segment')
    (hmethod : r.method ∈ recordMethods) :
    carryOut board b t { r with target := target } =
      carryOut board b t { r with target := target' } := by
  rcases mem_recordMethods_iff.1 hmethod with hmethod | hmethod | hmethod
  · rw [carryOut_of_get (r := { r with target := target }) hmethod hresource,
      carryOut_of_get (r := { r with target := target' }) hmethod hresource']
    unfold readRecord
    rw [hkey]
  · unfold carryOut
    rw [hresource, hresource', hmethod]
    show putRecord board b segment _ t = putRecord board b segment' _ t
    unfold putRecord
    rw [hkey]
    rfl
  · rw [carryOut_of_deleteMethod (r := { r with target := target }) hmethod hresource,
      carryOut_of_deleteMethod (r := { r with target := target' }) hmethod hresource']
    unfold deleteRecord
    rw [hkey]

/-- and so it is with the segment in front of a status. -/
theorem carryOut_of_status (hresource : Resource.ofTarget target = .status segment)
    (hresource' : Resource.ofTarget target' = .status segment') (hmethod : r.method = "PUT") :
    carryOut board b t { r with target := target } =
      carryOut board b t { r with target := target' } := by
  unfold carryOut
  rw [hresource, hresource', hmethod]
  show moveRecord board b segment _ t = moveRecord board b segment' _ t
  unfold moveRecord
  rw [hkey]
  rfl

end Targets

/-- A request is answered alike if the key in its path is spelled in another way. -/
theorem answer_of_respelled {r r' : Request} (h : Respelled r r') :
    board.answer b t r = board.answer b t r' := by
  cases h with
  | same => rfl
  | record h h' r hmethod =>
    have hresource : Resource.ofTarget (recordTarget _) = _ := h.ofTarget_record
    have hresource' : Resource.ofTarget (recordTarget _) = _ := h'.ofTarget_record
    refine answer_of_target ?_ ?_ ?_
      (carryOut_of_record (h.keyOf.trans h'.keyOf.symm) hresource hresource' hmethod)
    · rw [hresource, hresource']
      rcases mem_recordMethods_iff.1 hmethod with h | h | h <;> simp [h, Resource.methods]
    · rw [hresource, hresource']
      rfl
    · rcases mem_recordMethods_iff.1 hmethod with h | h | h <;> simp [h]
  | status h h' r hmethod =>
    have hresource : Resource.ofTarget (statusTarget _) = _ := h.ofTarget_status
    have hresource' : Resource.ofTarget (statusTarget _) = _ := h'.ofTarget_status
    refine answer_of_target ?_ ?_ ?_
      (carryOut_of_status (h.keyOf.trans h'.keyOf.symm) hresource hresource' hmethod)
    · simp [hresource, hresource', hmethod, Resource.methods]
    · rw [hresource, hresource']
      rfl
    · simp [hmethod]

/-- No run depends on how keys are spelled. -/
theorem run_of_respelled {rs rs' : List Request} (h : List.Forall₂ Respelled rs rs') :
    board.run b t rs = board.run b t rs' := by
  induction h generalizing t with
  | nil => rfl
  | cons hone _ ih => rw [run_cons, run_cons, answer_of_respelled hone, ih]

end Respelled

/-! ## What is done to the record -/

/-- The record that the body of a request is read as. -/
def broughtRecord (board : Board) (r : Request) : Except Halt Record := do
  parsed (Record.decode (← bodyOf board r))

/-- The record under a key is told, if there is one and it can be read. -/
def Reads (t : Table) (key : String) (result : Table × Answer) : Prop :=
  result.1 = t ∧
    match Backend.direct.getRecord t key with
    | .ok (some record) => result.2.status = 200 ∧ result.2.body = record.toValue.text
    | .ok none => result.2.status = 404
    | .error _ => result.2.status = 500

/-- A record is put under a key, if it is one and the record in its place can be read, or there is
none. -/
def Puts (t : Table) (key : String) (now : UInt64) (brought : Except Halt Record)
    (result : Table × Answer) : Prop :=
  match brought, Backend.direct.getRecord t key with
  | .ok record, .ok previous =>
    result.2.status = 200 ∧ result.1 = t.insert key (record.stamp key previous now).encode
  | _, _ => result.2.status = 500 ∧ result.1 = t

/-- What is under a key is deleted, and the answer tells whether there was anything. -/
def Deletes (t : Table) (key : String) (result : Table × Answer) : Prop :=
  result.2.status = 200 ∧ result.2.told?.bind (Value.member? "deleted") =
    some (.boolean (t.get? key).isSome) ∧
    result.1 = t.erase key

/-- The record under a key is moved to a status, if it is one, and if the record is there and can be
read. -/
def Moves (t : Table) (key : String) (now : UInt64) (asked : Except Halt Status)
    (result : Table × Answer) : Prop :=
  match asked, Backend.direct.getRecord t key with
  | .ok status, .ok (some old) =>
    result.2.status = 200 ∧ result.1 =
      t.insert key ((old.set "status" (.string status.text)).stamp key (some old) now).encode
  | .ok _, .ok none => result.2.status = 404 ∧ result.1 = t
  | _, _ => result.2.status = 500 ∧ result.1 = t

theorem broughtRecord_of_decode {board : Board} {r : Request} {record : Record}
    (hlength : r.body.length ≤ board.limits.body) (hrecord : Record.decode r.body = .ok record) :
    broughtRecord board r = .ok record := by
  unfold broughtRecord bodyOf
  rw [if_neg (Nat.not_lt.2 hlength)]
  show parsed (Record.decode r.body) = _
  rw [hrecord]
  rfl

theorem status_of_broughtRecord {board : Board} {r : Request} {h : Halt}
    (hbrought : broughtRecord board r = .error h) :
    h.status = 500 := by
  rcases error_of_bind hbrought with hbody | ⟨body, -, hparsed⟩
  · exact status_of_bodyOf hbody
  · exact status_of_parsed hparsed

theorem status_of_askedStatus {board : Board} {r : Request} {h : Halt}
    (hasked : askedStatus board r = .error h) :
    h.status = 500 := by
  rcases error_of_bind hasked with hbody | ⟨body, -, hasked⟩
  · exact status_of_bodyOf hbody
  rcases error_of_bind hasked with hparsed | ⟨name, -, hname⟩
  · exact status_of_parsed hparsed
  · split at hname <;> cases hname
    rfl

theorem putDraft_of_keyOf {segment key : String} (hkey : keyOf segment = .ok key) (board : Board)
    (r : Request) :
    putDraft board segment r = (broughtRecord board r).map fun record => (key, record) := by
  unfold putDraft broughtRecord
  rw [hkey]
  simp only [bind, Except.bind]
  cases bodyOf board r with
  | error h => rfl
  | ok body => cases parsed (Record.decode body) <;> rfl

section Admitted

variable {board : Board} {t : Table} {key : String} {r : Request}
  (hadmits : board.guard.admits r.headers = true)

include hadmits

theorem reads_of_asks (h : Asks "GET" key r) : Reads t key (board.answer .direct t r) := by
  refine ⟨table_of_get h, ?_⟩
  have hfound : ∀ record, Backend.direct.getRecord t key = .ok (some record) →
      (board.answer .direct t r).2.status = 200 ∧
      (board.answer .direct t r).2.body = record.toValue.text :=
    fun _ => answer_of_get h hadmits
  obtain ⟨hmethod, segment, hresource, hkey⟩ := h
  have hcarried : carryOut board .direct t r = readRecord .direct segment t :=
    carryOut_of_get hmethod hresource
  have hoptions : r.method ≠ "OPTIONS" := by simp [hmethod]
  cases hrecord : Backend.direct.getRecord t key with
  | error e =>
    rw [readRecord_of_key hkey, hrecord] at hcarried
    exact (answer_of_halted hoptions hadmits hcarried).1.trans (Halt.status_ofTrouble e)
  | ok found =>
    cases found with
    | none =>
      rw [readRecord_of_key hkey, hrecord] at hcarried
      exact (answer_of_halted hoptions hadmits hcarried).1
    | some record => exact hfound record hrecord

theorem puts_of_asks (h : Asks "PUT" key r) :
    Puts t key (clock r) (broughtRecord board r) (board.answer .direct t r) := by
  obtain ⟨hmethod, segment, hresource, hkey⟩ := h
  have hcarried := carryOut_of_putMethod board t hmethod hresource
  rw [putDraft_of_keyOf hkey] at hcarried
  have hoptions : r.method ≠ "OPTIONS" := by simp [hmethod]
  unfold Puts
  cases hbrought : broughtRecord board r with
  | error h =>
    rw [hbrought] at hcarried
    obtain ⟨hstatus, htable⟩ := answer_of_halted hoptions hadmits hcarried
    exact ⟨hstatus.trans (status_of_broughtRecord hbrought), htable⟩
  | ok record =>
    rw [hbrought, Except.map] at hcarried
    cases hprevious : Backend.direct.getRecord t key with
    | error e =>
      rw [writeDraft_of_unreadable rfl hprevious] at hcarried
      obtain ⟨hstatus, htable⟩ := answer_of_halted hoptions hadmits hcarried
      exact ⟨hstatus.trans (Halt.status_ofTrouble e), htable⟩
    | ok previous =>
      rw [writeDraft_of_readable rfl hprevious] at hcarried
      exact answer_of_carried hoptions hadmits hcarried

theorem deletes_of_asks (h : Asks "DELETE" key r) : Deletes t key (board.answer .direct t r) := by
  obtain ⟨hstatus, htable⟩ := answer_of_delete h hadmits
  exact ⟨hstatus, told_of_delete h hstatus, htable⟩

theorem moves_of_asksToMove (h : AsksToMove key r) :
    Moves t key (clock r) (askedStatus board r) (board.answer .direct t r) := by
  obtain ⟨hmethod, segment, hresource, hkey⟩ := h
  have hoptions : r.method ≠ "OPTIONS" := by simp [hmethod]
  have hcarried : carryOut board .direct t r = moveRecord board .direct segment r t := by
    unfold carryOut
    rw [hmethod, hresource]
    rfl
  rw [moveRecord_of_key hkey] at hcarried
  unfold Moves
  cases hasked : askedStatus board r with
  | error h =>
    rw [hasked] at hcarried
    obtain ⟨hstatus, htable⟩ := answer_of_halted hoptions hadmits hcarried
    exact ⟨hstatus.trans (status_of_askedStatus hasked), htable⟩
  | ok status =>
    rw [hasked] at hcarried
    dsimp only at hcarried
    cases hprevious : Backend.direct.getRecord t key with
    | error e =>
      rw [hprevious] at hcarried
      obtain ⟨hstatus, htable⟩ := answer_of_halted hoptions hadmits hcarried
      exact ⟨hstatus.trans (Halt.status_ofTrouble e), htable⟩
    | ok found =>
      rw [hprevious] at hcarried
      cases found with
      | none => exact answer_of_halted hoptions hadmits hcarried
      | some old =>
        rw [moving, writeDraft_of_readable rfl hprevious] at hcarried
        exact answer_of_carried hoptions hadmits hcarried

end Admitted

/--
**Every key is addressed by its spellings.**

* Every key that is not empty can be spelled, and with it every key that was acknowledged and not
  withdrawn since.
* A request that the guard lets through, with a spelling of a key as the segment of its path, reads,
  puts, deletes or moves the record under that key; what it is answered and what table it leaves is
  said by the key and the record under it.
* On any store, with faults or without, such a request looks at nothing else and changes nothing
  else.
* Spellings of one key are interchangeable: no run on any store comes to other answers or to another
  table if some of its requests spell their keys in another way.
* Spellings of different keys have nothing to do with each other: after a run of requests about
  other records the record is what it was, and a request about it is told the same and does the
  same.
-/
theorem every_key_is_addressed (board : Board) :
    ((∀ key, key ≠ "" → ∃ segment, Spells segment key) ∧
      ∀ rs key, IsAcknowledged key (history board .empty rs) → ∃ segment, Spells segment key) ∧
    (∀ segment key, Spells segment key → ∀ (t : Table) (r : Request),
      board.guard.admits r.headers = true →
      (r.target = recordTarget segment →
        (r.method = "GET" → Reads t key (board.answer .direct t r)) ∧
        (r.method = "PUT" → Puts t key (clock r) (broughtRecord board r)
          (board.answer .direct t r)) ∧
        (r.method = "DELETE" → Deletes t key (board.answer .direct t r))) ∧
      (r.target = statusTarget segment → r.method = "PUT" →
        Moves t key (clock r) (askedStatus board r) (board.answer .direct t r))) ∧
    (∀ segment key, Spells segment key → ∀ r, IsAbout segment r → ∀ b,
      LocalTo [key] fun t => board.answer b t r) ∧
    (∀ (b : Backend) (t : Table) (rs rs' : List Request), List.Forall₂ Respelled rs rs' →
      board.run b t rs = board.run b t rs') ∧
    (∀ segment key, Spells segment key → ∀ r,
      IsAbout segment r → ∀ (b : Backend) (t : Table) (rs : List Request),
      (∀ r' ∈ rs, ∃ segment' key', Spells segment' key' ∧ key' ≠ key ∧ IsAbout segment' r') →
        (board.run b t rs).1.get? key = t.get? key ∧
        (board.answer b (board.run b t rs).1 r).2 = (board.answer b t r).2 ∧
        (board.answer b (board.run b t rs).1 r).1.get? key = (board.answer b t r).1.get? key) := by
  refine ⟨⟨fun key hkey => ⟨percentEncode key, spells_percentEncode hkey⟩, fun _ _ =>
    exists_spells_of_isAcknowledged⟩,
    fun segment key h t r hadmits =>
      ⟨fun htarget => ⟨fun hmethod => ?_, fun hmethod => ?_, fun hmethod => ?_⟩,
      fun htarget hmethod => moves_of_asksToMove hadmits (h.asksToMove hmethod htarget)⟩,
    fun segment key h r hr b => localTo_of_isAbout board b h hr,
    fun b t rs rs' h => run_of_respelled h, fun segment key h r hr b t rs hothers => ?_⟩
  · exact reads_of_asks hadmits (hmethod ▸ h.asks htarget)
  · exact puts_of_asks hadmits (hmethod ▸ h.asks htarget)
  · exact deletes_of_asks hadmits (hmethod ▸ h.asks htarget)
  · have hsame := run_of_others board b hothers t
    have hlocal := localTo_of_isAbout board b h hr
    have halike : Store.AlikeAt [key] (board.run b t rs).1 t := by
      simpa [Store.AlikeAt] using hsame
    exact ⟨hsame, hlocal.result halike, hlocal.alike halike key List.mem_cons_self⟩

/-- A key with a slash in it, spelled in two ways. -/
theorem key_with_slash_is_addressed :
    ∃ (board : Board) (put get get' : Request),
      Board.ofSettings { ({} : Settings) with apiKey := some "k" } = .ok board ∧
      put = carrying "k" "PUT" "/state/a%2Fb" Record.empty.encode 5 ∧
      get = carrying "k" "GET" "/state/a%2Fb" [] 6 ∧ get' = carrying "k" "GET" "/state/a%2fb" [] 6 ∧
      board.run .direct .empty [put, get] = board.run .direct .empty [put, get'] ∧
      (board.answer .direct .empty put).2.status = 200 ∧
      (board.answer .direct .empty put).1 =
        Table.empty.insert "a/b" (Record.empty.stamp "a/b" none 5).encode := by
  obtain ⟨board, hboard⟩ := exists_board "k" (by decide)
  have hlarge : Spells "a%2Fb" "a/b" := ⟨⟨by decide, by simp⟩, by decide⟩
  have hsmall : Spells "a%2fb" "a/b" := ⟨⟨by decide, by simp⟩, by decide⟩
  obtain ⟨-, hacts, -, hrespelled, -⟩ := every_key_is_addressed board
  refine ⟨board, _, _, _, hboard.settings, rfl, rfl, rfl, ?_, ?_⟩
  · exact hrespelled .direct .empty _ _
      (.cons (.same _)
        (.cons (.record hlarge hsmall (carrying "k" "GET" "/state" [] 6) (by decide)) .nil))
  · have hputs :=
      ((hacts "a%2Fb" "a/b" hlarge .empty (carrying "k" "PUT" "/state/a%2Fb" Record.empty.encode 5)
      (hboard.admits_carrying _ _ _ _)).1 rfl).2.1 rfl
    have hlength : Record.empty.encode.length ≤ board.limits.body := by
      rw [hboard.limits]
      exact (by decide : Record.empty.encode.length ≤ 33554432)
    have hbrought : broughtRecord board (carrying "k" "PUT" "/state/a%2Fb" Record.empty.encode 5) =
        .ok Record.empty :=
      broughtRecord_of_decode hlength decode_empty
    unfold Puts at hputs
    rw [hbrought, Store.getRecord_of_absent (rfl : Table.empty.get? "a/b" = none)] at hputs
    exact hputs

end RecordBoard.Board
