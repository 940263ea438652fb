import RecordBoard.Proofs.Board.Listing

/-!
# What is told when a request is not carried out

Whatever ends a request, its answer has one of three statuses and a body of one form, in which the
message stands as it is: quotes and other characters that a JSON text cannot hold are written so
that a reader gets them back.

The causes can be listed.  The guard turns the request away, nothing is served at its path, or there
is no record there; the path, the query or the body do not say what they must; the random source
fails; or a call on the store does not return, since a fault that is laid down concerns it, or since
something in the store cannot be read.  Each cause settles a status and the words that the client
gets to see, and the list gives both in full: the key, the path, the fault or the place in the body
stand in the words as they are.

That the list is complete is shown part by part, in the order in which a request is looked at.

## Main definitions

* `Halt.IsFrom` — what can end a request, with the status and the words of the answer.
* `Halt.message` — what a client is told about the end of a request.

## Main results

* `Halt.IsFrom.told` — the words of a cause are those that are told.
* `decode_errorBody` — the body of a refusal is read as it was meant, whatever the words.
* `ends_outcome` — the list of what can end a request is complete.
* `every_refusal_is_told` — all of it together, for all requests.
-/

namespace RecordBoard.Board

open Json (Value)
open Store (Backend Table)
open Http (Request Answer)

/-! ## Causes -/

/-- What the answer says about the end of a request. -/
def Halt.message : Halt → String
  | .failure f => f.message
  | .panic p => p.message

/-- The body of a request is not the JSON that is asked for at its path. -/
inductive IsMisread (r : Request) (f : Json.Fault) : Prop
  /-- It is no record where one is put or made. -/
  | record (hresource : Resource.ofTarget r.target = .records ∨
        ∃ segment, Resource.ofTarget r.target = .record segment)
      (h : Record.decode r.body = .error f)
  /-- It asks for no status where a record is moved. -/
  | status {segment : String} (hresource : Resource.ofTarget r.target = .status segment)
      (h : StatusBody.decode r.body = .error f)
  /-- It is no payload where a delivery is taken. -/
  | payload (hresource : Resource.ofTarget r.target = .deliveries)
    (h : Json.decode r.body = .error f)
  /-- It is no list where a sync is taken. -/
  | sync (hresource : Resource.ofTarget r.target = .sync)
      (h : SyncBody.decode r.body = .error (.badBody f))

/-- What can end a request, with the status and the words of the answer. -/
inductive Halt.IsFrom (board : Board) (b : Backend) (t : Table) (r : Request) :
    Halt → Nat → String → Prop
  /-- The guard turns the request away. -/
  | guard (h : board.guard.admits r.headers = false) :
      IsFrom board b t r (.failure .unauthorized) 401 "unauthorized"
  /-- Nothing is served by its method at its path. -/
  | route (h : r.method ∉ (Resource.ofTarget r.target).methods) :
      IsFrom board b t r (.failure (.noRoute r.method r.target.path)) 404
        ("route not found: " ++ r.method ++ " " ++ r.target.path)
  /-- There is no record under the key that its path spells. -/
  | absent {segment key : String}
      (hresource : Resource.ofTarget r.target = .record segment ∨
        Resource.ofTarget r.target = .status segment)
      (hkey : keyOf segment = .ok key) (habsent : b.getRecord t key = .ok none) :
      IsFrom board b t r (.failure (.noRecord key)) 404 ("entity not found: " ++ key)
  /-- Its path spells no key. -/
  | path {segment : String}
      (hresource : Resource.ofTarget r.target = .record segment ∨
        Resource.ofTarget r.target = .status segment)
      (hkey : keyOf segment = fail .badPath) :
      IsFrom board b t r (.failure .badPath) 500 "invalid path: Invalid URL: Invalid UTF-8 in `key`"
  /-- A field of its query comes twice. -/
  | query {name : String} (h : repeated? [] r.target.fields = some name) :
      IsFrom board b t r (.failure (.repeatedField name)) 500
        ("invalid query: Failed to deserialize query string: duplicate field `" ++ name ++ "`")
  /-- Its body is too long. -/
  | length (h : board.limits.body < r.body.length) :
      IsFrom board b t r (.failure .longBody) 500
        "invalid body: Failed to buffer the request body: length limit exceeded"
  /-- Its body is not the JSON that is asked for. -/
  | body {cause : Json.Cause} {line column : Nat} (h : IsMisread r ⟨cause, line, column⟩) :
      IsFrom board b t r (.failure (.badBody ⟨cause, line, column⟩)) 500
        ("invalid JSON body: " ++ cause.message ++ " at line " ++ toString line ++ " column "
          ++ toString column)
  /-- Its body holds no records. -/
  | noRecords (hresource : Resource.ofTarget r.target = .sync)
      (h : SyncBody.decode r.body = .error .noRecords) :
      IsFrom board b t r (.failure .noRecords) 500
        "invalid JSON body: data did not match any variant of untagged enum SyncBody"
  /-- It asks for a status that there is not. -/
  | unknown {name : String} (hname : StatusBody.decode r.body = .ok name)
      (h : Status.ofText? name = none) :
      IsFrom board b t r (.failure (.unknownStatus name)) 500 ("unknown status: " ++ name)
  /-- The random source fails. -/
  | random (h : r.random = none) :
      IsFrom board b t r (.failure .noRandom) 500 "id generation: Input/output error"
  /-- A call on the store does not return. -/
  | store {e : Store.Trouble} {words : String}
      (h : e.IsFrom b t (queryField? "cursor" r.target.fields) words) :
      IsFrom board b t r (.ofTrouble e) 500 words

namespace Halt

variable {board : Board} {b : Backend} {t : Table} {r : Request} {h : Halt}

theorem message_ofTrouble (e : Store.Trouble) : (ofTrouble e).message = e.message := by
  cases e <;> rfl

theorem message_badBody (f : Json.Fault) :
    (Halt.failure (.badBody f)).message = "invalid JSON body: " ++ f.message := rfl

/-- The status and the words of a cause are those that are told. -/
theorem IsFrom.told {status : Nat} {words : String} (hfrom : h.IsFrom board b t r status words) :
    h.status = status ∧ h.message = words := by
  cases hfrom with
  | guard | route | absent | path | query | length | noRecords | unknown | random =>
    exact ⟨rfl, rfl⟩
  | body =>
    refine ⟨rfl, (message_badBody _).trans ?_⟩
    rw [Json.Fault.message_mk]
    simp only [String.append_assoc]
  | store htrouble => exact ⟨status_ofTrouble _, (message_ofTrouble _).trans htrouble.message⟩

/-- There is a cause for the end of the request. -/
def Arises (board : Board) (b : Backend) (t : Table) (r : Request) (h : Halt) : Prop :=
  ∃ status words, h.IsFrom board b t r status words

end Halt

/-! ## Requests -/

section Handlers

variable {board : Board} {b : Backend} {t : Table} {r : Request}

/-- What a listing of the request, or a call that lists nothing, ends with. -/
theorem ends_calling {α : Type} {call : Except Store.Trouble α}
    (h : Ends (Store.Trouble.Arises b t (queryField? "cursor" r.target.fields)) call) :
    Ends (Halt.Arises board b t r) (calling call) :=
  .mapError fun e he =>
    have ⟨_, hfrom⟩ := h e he
    ⟨_, _, .store hfrom⟩

theorem ends_performing {α : Type} {action : Store.Action Store.Trouble α}
    (h : Ends (Store.Trouble.Arises b t (queryField? "cursor" r.target.fields)) (action t).2) :
    Ends (Halt.Arises board b t r) (performing action t).2 :=
  ends_calling h

theorem ends_keyOf {segment : String}
    (hresource : Resource.ofTarget r.target = .record segment ∨
      Resource.ofTarget r.target = .status segment) :
    Ends (Halt.Arises board b t r) (keyOf segment) := by
  have hpath : keyOf segment = fail .badPath → Ends (Halt.Arises board b t r) (keyOf segment) :=
    fun hkey => hkey ▸ .error ⟨_, _, .path hresource hkey⟩
  unfold keyOf at hpath ⊢
  split
  · exact .ok _
  next hdecode => simpa only [hdecode, forall_const] using hpath

theorem ends_bodyOf : Ends (Halt.Arises board b t r) (bodyOf board r) := by
  unfold bodyOf
  split
  next hlong => exact .error ⟨_, _, .length hlong⟩
  next => exact .ok _

theorem ends_parsed {α : Type} {result : Except Json.Fault α}
    (h : ∀ f, result = .error f → IsMisread r f) : Ends (Halt.Arises board b t r) (parsed result) :=
  .mapError fun f hf => ⟨_, _, .body (h f hf)⟩

theorem ends_readRecord {segment : String}
    (hresource : Resource.ofTarget r.target = .record segment) :
    Ends (Halt.Arises board b t r) (readRecord b segment t).2 := by
  refine .check (ends_keyOf (.inl hresource)) fun key hkey =>
    .reading (ends_calling (b.ends_getRecord t _ key)) fun found hfound => ?_
  cases found with
  | none => exact .error ⟨_, _, .absent (.inl hresource) hkey (ok_of_mapError hfound)⟩
  | some record => exact .ok _

theorem ends_listRecords {s : Settings} (hboard : Board.ofSettings s = .ok board) :
    Ends (Halt.Arises board b t r) (listRecords board b r.target t).2 := by
  unfold listRecords
  dsimp only
  cases hrepeated : repeated? [] r.target.fields with
  | some name => exact .error ⟨_, _, .query hrepeated⟩
  | none =>
    obtain ⟨size, -, hsize⟩ := exists_pageSize hboard (queryField? "limit" r.target.fields)
    refine .check (hsize ▸ .ok _) fun size' _ =>
      .reading (ends_calling fun e he => ?_) fun _ _ => .ok _
    obtain ⟨words, hfrom⟩ := b.ends_listRecords t _ _ _ e he
    -- A cursor that is written as nothing counts as none, so only one that is written can be at
    -- fault.
    exact ⟨words, hfrom.mono fun text htext => (Option.filter_eq_some_iff.1 htext).1⟩

theorem ends_summary : Ends (Halt.Arises board b t r) (summary board b t).2 := by
  refine .reading (ends_calling fun e he => ?_) fun _ _ => .ok _
  obtain ⟨words, hfrom⟩ := b.ends_scan t _ e he
  exact ⟨words, hfrom.mono nofun⟩

theorem ends_putRecord {segment : String}
    (hresource : Resource.ofTarget r.target = .record segment) :
    Ends (Halt.Arises board b t r) (putRecord board b segment r t).2 := by
  refine .check (ends_keyOf (.inl hresource)) fun key _ => .check ends_bodyOf fun body hbody => ?_
  rw [eq_body_of_bodyOf hbody]
  exact .check (ends_parsed fun _ hf => .record (.inr ⟨segment, hresource⟩) hf) fun record _ =>
    .andThen (ends_performing (b.ends_upsert t _ key record (clock r))) fun _ _ => .ok _

theorem ends_assigned (record : Record) :
    Ends (Halt.Arises board b t r) ((assigned r.random record).mapError .failure) := by
  refine .mapError fun f hf => ?_
  unfold assigned at hf
  split at hf
  · cases hf
  · dsimp only at hf
    split at hf
    · cases hf
    · cases hf
    next hrandom =>
      cases hf
      exact ⟨_, _, .random hrandom⟩

theorem ends_createRecord (hresource : Resource.ofTarget r.target = .records) :
    Ends (Halt.Arises board b t r) (createRecord board b r t).2 := by
  refine .check ends_bodyOf fun body hbody => ?_
  rw [eq_body_of_bodyOf hbody]
  exact .check (ends_parsed fun _ hf => .record (.inl hresource) hf) fun record _ =>
    .check (ends_assigned record) fun draft _ =>
      .andThen (ends_performing (b.ends_upsert t _ draft.1 draft.2 (clock r))) fun _ _ => .ok _

theorem ends_moveRecord {segment : String}
    (hresource : Resource.ofTarget r.target = .status segment) :
    Ends (Halt.Arises board b t r) (moveRecord board b segment r t).2 := by
  refine .check (ends_keyOf (.inr hresource)) fun key hkey =>
    .check ends_bodyOf fun body hbody => ?_
  rw [eq_body_of_bodyOf hbody]
  refine .check (ends_parsed fun _ hf => .status hresource hf) fun name hname => ?_
  cases hstatus : Status.ofText? name with
  | none => exact .error ⟨_, _, .unknown (ok_of_mapError hname) hstatus⟩
  | some status =>
    refine .reading (ends_calling (b.ends_getRecord t _ key)) fun found hfound => ?_
    cases found with
    | none => exact .error ⟨_, _, .absent (.inr hresource) hkey (ok_of_mapError hfound)⟩
    | some record =>
      exact .andThen (ends_performing (b.ends_upsert t _ key _ (clock r))) fun _ _ => .ok _

theorem ends_deleteRecord {segment : String}
    (hresource : Resource.ofTarget r.target = .record segment) :
    Ends (Halt.Arises board b t r) (deleteRecord b segment t).2 :=
  .check (ends_keyOf (.inl hresource)) fun _ _ =>
    .andThen (ends_performing (b.ends_writing t _ _ _ _ _ t)) fun _ _ => .ok _

theorem ends_takeDelivery (hresource : Resource.ofTarget r.target = .deliveries) :
    Ends (Halt.Arises board b t r) (takeDelivery board b r t).2 := by
  refine .check ends_bodyOf fun body hbody => ?_
  rw [eq_body_of_bodyOf hbody]
  cases (Delivery.rule? ((r.headers.text? eventHeader).getD "")).isNone with
  | true => exact .ok _
  | false =>
    refine .check (ends_parsed fun _ hf => .payload hresource hf) fun payload _ => ?_
    cases Delivery.normalize ((r.headers.text? eventHeader).getD "") payload (clock r) with
    | record draft =>
      exact .andThen (ends_performing (b.ends_upsert t _ _ _ (clock r))) fun _ _ => .ok _
    | _ => exact .ok _

/-- An item of a sync ends the request only by a breakdown, and so its table does not matter. -/
theorem ends_syncOne (cursor : Option String) (now : UInt64) (v : Value) (t' : Table) :
    Ends (fun p => Store.Trouble.Arises b t cursor (.panic p)) (syncOne b now v t').2 := by
  cases hdraft : syncDraft? v with
  | none =>
    obtain ⟨e, hone⟩ := syncOne_of_no_draft hdraft
    rw [hone]
    exact .ok _
  | some draft =>
    rw [syncOne_of_draft hdraft]
    show Ends _ (slotOf draft.1 (b.upsert draft.1 draft.2 now t').2)
    cases hwrite : (b.upsert draft.1 draft.2 now t').2 with
    | ok stored => exact .ok _
    | error e =>
      cases e with
      | failure f => exact .ok _
      | panic p =>
        obtain ⟨words, hfrom⟩ := b.ends_upsert t' cursor _ _ _ _ hwrite
        exact .error ⟨words, hfrom.panic t⟩

theorem ends_syncAll (cursor : Option String) (now : UInt64) (items : List Value) (t' : Table) :
    Ends (fun p => Store.Trouble.Arises b t cursor (.panic p)) (syncAll b now items t').2 := by
  induction items generalizing t' with
  | nil => exact .ok _
  | cons v rest ih =>
    exact .andThen (ends_syncOne cursor now v t') fun _ _ => .andThen (ih _) fun _ _ => .ok _

theorem ends_sync (hresource : Resource.ofTarget r.target = .sync) :
    Ends (Halt.Arises board b t r) (sync board b r t).2 := by
  refine .check (.bind ends_bodyOf fun body hbody => .mapError fun f hf => ?_) fun records _ =>
    .andThen (.mapError fun p hp => ?_) fun _ _ => .ok _
  · rw [eq_body_of_bodyOf hbody] at hf
    rcases ends_syncBody r.body f hf with rfl | ⟨g, rfl⟩
    · exact ⟨_, _, .noRecords hresource hf⟩
    · exact ⟨_, _, .body (.sync hresource hf)⟩
  · obtain ⟨words, hfrom⟩ := ends_syncAll _ (clock r) records t p hp
    exact ⟨_, _, .store hfrom⟩

/-- The list of what can end a request is complete, if the settings of the board passed their
check. -/
theorem ends_outcome {s : Settings} (hboard : Board.ofSettings s = .ok board) :
    Ends (Halt.Arises board b t r) (outcome board b t r).2 := by
  unfold outcome
  split
  next hrefused =>
    rw [Bool.and_eq_true, Bool.not_eq_true'] at hrefused
    exact .error ⟨_, _, .guard hrefused.2⟩
  unfold carryOut
  split
  · exact .ok _
  · exact .reading (ends_calling fun e he =>
      have ⟨words, hfrom⟩ := b.ends_list t none "" 1 e he
      ⟨words, hfrom.mono nofun⟩) fun _ _ => .ok _
  · exact ends_listRecords hboard
  next hresource _ => exact ends_createRecord hresource
  next hresource _ => exact ends_readRecord hresource
  next hresource _ => exact ends_putRecord hresource
  next hresource _ => exact ends_deleteRecord hresource
  next hresource _ => exact ends_moveRecord hresource
  next hresource _ => exact ends_sync hresource
  next hresource _ => exact ends_takeDelivery hresource
  · exact ends_summary
  next =>
    refine .error ⟨_, _, .route fun hmem => ?_⟩
    generalize Resource.ofTarget r.target = resource at *
    generalize r.method = method at *
    have hget : Verb.ofMethod "GET" = .get := by decide
    have hhead : Verb.ofMethod "HEAD" = .get := by decide
    have hput : Verb.ofMethod "PUT" = .put := by decide
    have hpost : Verb.ofMethod "POST" = .post := by decide
    have hdelete : Verb.ofMethod "DELETE" = .delete := by decide
    cases resource <;> simp_all [Resource.methods] <;> grind

end Handlers

/-! ## Answers -/

/-- The body of a refusal is read as it was meant, whatever the words. -/
theorem decode_errorBody (message : String) :
    Json.decode (errorBody message).encode =
      .ok (.object [("error", .string message), ("success", .boolean false)]) := by
  have hdepth : (errorBody message).depth ≤ Json.maxDepth := by
    show 1 ≤ Json.maxDepth
    decide
  have hback : (errorBody message).readBack =
      .object [("error", .string message), ("success", .boolean false)] := by
    have hlt : "error" < "success" := by decide
    simp [errorBody, Value.readBack, Value.readBackFields, Keyed.ofList, Keyed.insert, hlt]
  rw [Json.decode_encode_of_depth_le hdepth, hback]

theorem body_withMethods (resource : Resource) (method : String) (a : Answer) :
    (withMethods resource method a).body = a.body := by
  unfold withMethods
  split <;> rfl

/-- The words of a refusal are those of what ended the request, unless only the headers are asked
for. -/
theorem body_answerOf_error (resource : Resource) {method : String} (hmethod : method ≠ "HEAD")
    (h : Halt) :
    (answerOf resource method (.error h)).body = (errorBody h.message).text := by
  cases h with
  | failure f =>
    rw [answerOf, body_withMethods, body_finished hmethod]
    rfl
  | panic p =>
    rw [answerOf]
    split
    · rfl
    · rw [body_finished hmethod]
      rfl

theorem status_permission (board : Board) (resource : Resource) (method : String) :
    (permission board resource method).status = 200 := by
  unfold permission
  dsimp only
  split
  · rfl
  · rw [status_withMethods, status_finished]

/--
**Every refusal is told.**  On a board whose settings passed their check, whatever the table holds
and however the store treats its calls, the status of an answer is 200, 201, 401, 404 or 500.  If it
is neither 200 nor 201, something that `Halt.IsFrom` lists ended the request, with this status, and
the words that are listed with it, as they are, are the field `error` of the body, which has one
field more, `success`, that is false.  Only an answer to a question for the headers may be without
that body.
-/
theorem every_refusal_is_told {s : Settings} {board : Board}
    (hboard : Board.ofSettings s = .ok board) (b : Backend) (t : Table) (r : Request) :
    (board.answer b t r).2.status ∈ [200, 201, 401, 404, 500] ∧
    ((board.answer b t r).2.status ∉ [200, 201] →
      ∃ (h : Halt) (words : String), (outcome board b t r).2 = .error h ∧
        h.IsFrom board b t r (board.answer b t r).2.status words ∧
        (r.method ≠ "HEAD" →
          Json.decode (Utf8.encode (board.answer b t r).2.body) =
            .ok (.object [("error", .string words), ("success", .boolean false)]))) := by
  by_cases hoptions : r.method = "OPTIONS"
  · have hstatus : (board.answer b t r).2.status = 200 := by
      unfold answer
      rw [if_pos hoptions]
      dsimp only
      rw [status_withOrigins, status_permission]
    rw [hstatus]
    exact ⟨by decide, fun hother => absurd (by decide) hother⟩
  · rw [answer_of_method board b t hoptions]
    dsimp only
    rw [status_withOrigins, body_withOrigins]
    cases hresult : (outcome board b t r).2 with
    | ok reply =>
      obtain ⟨-, hcarried⟩ := carryOut_of_reply hresult
      have hsuccess : reply.status ∈ [200, 201] := status_of_carryOut (by rw [← hcarried, hresult])
      have hstatus : (answerOf (Resource.ofTarget r.target) r.method (.ok reply)).status =
          reply.status := by
        rw [answerOf, status_finished]
        rfl
      rw [hstatus]
      refine ⟨?_, fun hother => absurd hsuccess hother⟩
      exact List.mem_append_left [401, 404, 500] hsuccess
    | error h =>
      rw [status_answerOf_error]
      refine ⟨List.mem_append_right [200, 201] h.status_mem, fun _ => ?_⟩
      obtain ⟨status, words, hfrom⟩ := ends_outcome hboard h hresult
      obtain ⟨rfl, rfl⟩ := hfrom.told
      refine ⟨h, _, rfl, hfrom, fun hmethod => ?_⟩
      rw [body_answerOf_error _ hmethod]
      exact decode_errorBody h.message

/-- A store that breaks down over one record and fails to read another. -/
def faulty : Backend :=
  .subject [⟨.get, some "p", .panics (.text "no \"p\"\n")⟩,
    ⟨.get, some "f", .fails ⟨.reading, "disk \"1\" full"⟩⟩]

/-- What ends the reading of a record ends an admitted request for it. -/
theorem outcome_of_unread {board : Board} {b : Backend} {t : Table} {r : Request} {segment : String}
    {h : Halt} (hadmits : board.guard.admits r.headers = true) (hget : r.method = "GET")
    (hresource : Resource.ofTarget r.target = .record segment)
    (hended : (readRecord b segment t).2 = .error h) :
    (outcome board b t r).2 = .error h := by
  rw [outcome_of_admitted board b t hadmits, carryOut_of_get hget hresource]
  exact hended

/-- There is no record under a key that has quotes. -/
theorem readRecord_of_quoted :
    (readRecord faulty "%22a%22" .empty).2 = .error (.failure (.noRecord "\"a\"")) := by
  have hdecoded : Http.percentDecode (Utf8.encode "%22a%22") = Utf8.encode "\"a\"" := by
    decide +kernel
  have hkey : keyOf "%22a%22" = .ok "\"a\"" := by
    unfold keyOf
    rw [hdecoded, Utf8.decode_encode]
  have hnone : faulty.getRecord .empty "\"a\"" = .ok none := rfl
  rw [readRecord_of_key hkey, hnone]
  rfl

/-- A breakdown, a failure and a key are told with the quotes that are in them. -/
theorem quotes_are_told :
    ∃ board : Board, Board.ofSettings { ({} : Settings) with apiKey := some "k" } = .ok board ∧
      ∀ told ∈ [("/state/p", 500, "no \"p\"\n"), ("/state/f", 500, "read error: disk \"1\" full"),
          ("/state/%22a%22", 404, "entity not found: \"a\"")],
        (board.answer faulty .empty (carrying "k" "GET" told.1 [] 0)).2.status = told.2.1 ∧
          Json.decode
            (Utf8.encode (board.answer faulty .empty (carrying "k" "GET" told.1 [] 0)).2.body) =
            .ok (.object [("error", .string told.2.2), ("success", .boolean false)]) := by
  obtain ⟨board, hboard⟩ := exists_board "k" (by decide)
  have htold : ∀ {uri segment : String} {h : Halt},
      Resource.ofTarget (Http.Target.ofText uri) = .record segment →
      (readRecord faulty segment .empty).2 = .error h →
      (board.answer faulty .empty (carrying "k" "GET" uri [] 0)).2.status = h.status ∧
        Json.decode
          (Utf8.encode (board.answer faulty .empty (carrying "k" "GET" uri [] 0)).2.body) =
          .ok (.object [("error", .string h.message), ("success", .boolean false)]) := by
    intro uri segment h hresource hended
    have houtcome := outcome_of_unread (r := carrying "k" "GET" uri [] 0)
      (hboard.admits_carrying "GET" uri [] 0) rfl hresource hended
    have hstatus := status_of_error (by decide : "GET" ≠ "OPTIONS") houtcome
    have hrefused : h.status ∉ [200, 201] := by
      have hmem := h.status_mem
      simp only [List.mem_cons, List.not_mem_nil, or_false] at hmem ⊢
      omega
    obtain ⟨h', words, hsame, hfrom, hbody⟩ :=
      (every_refusal_is_told hboard.settings faulty .empty (carrying "k" "GET" uri [] 0)).2
        (hstatus ▸ hrefused)
    obtain rfl : h = h' := Except.error.inj (houtcome.symm.trans hsame)
    obtain ⟨-, rfl⟩ := hfrom.told
    exact ⟨hstatus, hbody (by decide : "GET" ≠ "HEAD")⟩
  have hfault : (Halt.ofTrouble (.failure ⟨.reading, "disk \"1\" full"⟩)).message =
      "read error: disk \"1\" full" := by decide
  have hquoted : (Halt.failure (.noRecord "\"a\"")).message = "entity not found: \"a\"" := by decide
  refine ⟨board, hboard.settings, ?_⟩
  simp only [List.forall_mem_cons, List.not_mem_nil, false_implies, implies_true, and_true]
  refine ⟨htold (by decide : Resource.ofTarget (Http.Target.ofText "/state/p") = .record "p") rfl,
    ?_, ?_⟩
  · rw [← hfault]
    exact htold (by decide : Resource.ofTarget (Http.Target.ofText "/state/f") = .record "f") rfl
  · rw [← hquoted]
    exact htold
      (by decide : Resource.ofTarget (Http.Target.ofText "/state/%22a%22") = .record "%22a%22")
      readRecord_of_quoted

end RecordBoard.Board
