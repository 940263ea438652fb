import RecordBoard.Board.Answer
import RecordBoard.Proofs.Board.Rejection
import RecordBoard.Proofs.Guard
import RecordBoard.Proofs.Record.Stamp
import RecordBoard.Proofs.Store.Action

/-!
# What an answer says about its request

The status of an answer tells how the request ended: one that was carried out is answered with 200
or 201, and nothing else is.  So a client that sees one of these knows that the guard let it through
and that the body is what the request came to.

A client reads the body as JSON.  It sees the fields in key order, and each double as its numeral is
read; since bodies nest deeper than the records in them, it follows brackets as deep as they come.

## Main definitions

* `Http.Answer.told?` — the value that a client reads in the body of an answer.
* `Board.Asks` — a request for the record under a key.
* `Board.carrying`, `Board.IsDefault` — a request that carries a secret, and a board that asks for
  it.

## Main results

* `reply_of_status`, `reply_of_carried` — an answer with status 200 or 201 is the reply that the
  request came to.
* `answer_of_reply` — conversely, a reply is answered with its status and its body.
* `told?_of_body`, `told_of_field` — what a client reads where an object was written.
-/

namespace RecordBoard

open Json (Value)

/-- The value that a client reads in the body of an answer. -/
def Http.Answer.told? (a : Http.Answer) : Option Value :=
  (Json.readDeep (Utf8.encode a.body)).toOption

/-- A client reads what was written, with fields in order and doubles as their numerals are read. -/
theorem Http.Answer.told?_of_body {a : Http.Answer} {v : Value} (hbody : a.body = v.text) :
    a.told? = some v.readBack := by
  have hread := Json.readDeep_encode v
  rw [Value.encode, ← hbody] at hread
  rw [told?, hread]
  rfl

/-- A field of an object is read back, unless its name comes again. -/
theorem Json.Value.member?_readBack (front : List (String × Value)) {name : String} {v : Value}
    {back : List (String × Value)} (hback : ∀ e ∈ back, e.1 ≠ name) :
    (Value.object (front ++ (name, v) :: back)).readBack.member? name = some v.readBack := by
  rw [Value.readBack, Value.readBackFields_eq_map, List.map_append, List.map_cons]
  refine Keyed.get?_ofList_append_cons _ fun e he => ?_
  obtain ⟨e', he', rfl⟩ := List.mem_map.1 he
  exact hback e' he'

/-- A field that is not written is not read back. -/
theorem Json.Value.member?_readBack_eq_none {fields : List (String × Value)} {name : String}
    (h : ∀ e ∈ fields, e.1 ≠ name) : (Value.object fields).readBack.member? name = none := by
  rw [Value.readBack, Value.readBackFields_eq_map]
  refine Keyed.get?_ofList_eq_none fun e he => ?_
  obtain ⟨e', he', rfl⟩ := List.mem_map.1 he
  exact h e' he'

/-- A field of a body is told, unless its name comes again. -/
theorem Http.Answer.told_of_field {a : Http.Answer} (front : List (String × Value)) {name : String}
    {v : Value} {back : List (String × Value)} (hback : ∀ e ∈ back, e.1 ≠ name)
    (hbody : a.body = (Value.object (front ++ (name, v) :: back)).text) :
    a.told?.bind (Value.member? name) = some v.readBack := by
  rw [told?_of_body hbody, Option.bind_some, Value.member?_readBack front hback]

/-- A record that is told is read as from the table. -/
theorem Http.Answer.told?_of_record {a : Http.Answer} {r : Record} (hr : r.toValue.IsOrdered)
    (hbody : a.body = r.toValue.text) : a.told? = some r.reread.toValue := by
  rw [told?_of_body hbody, Value.readBack_of_isOrdered r.toValue hr, Record.toValue_reread]

namespace Board

open Store (Action Backend Table)
open Http (Request Answer)

/-! ## The status of an answer -/

@[simp] theorem status_finished (method : String) (a : Answer) :
    (finished method a).status = a.status := by
  unfold finished
  dsimp only
  split <;> rfl

@[simp] theorem status_withMethods (resource : Resource) (method : String) (a : Answer) :
    (withMethods resource method a).status = a.status := by
  unfold withMethods
  split <;> rfl

theorem body_finished {method : String} (h : method ≠ "HEAD") (a : Answer) :
    (finished method a).body = a.body := by
  unfold finished
  dsimp only
  rw [if_neg h]
  rfl

/-- The status of the answer to a request that ends without a reply. -/
def Halt.status : Halt → Nat
  | .failure f => f.status
  | .panic _ => 500

/-- There are three of them. -/
theorem Halt.status_mem (h : Halt) : h.status ∈ [401, 404, 500] := by
  cases h with
  | failure f => cases f <;> simp [Halt.status, Failure.status]
  | panic p => simp [Halt.status]

theorem Halt.status_ofTrouble (e : Store.Trouble) : (Halt.ofTrouble e).status = 500 := by
  cases e <;> rfl

theorem status_answerOf_error (resource : Resource) (method : String) (h : Halt) :
    (answerOf resource method (.error h)).status = h.status := by
  cases h with
  | failure f =>
    rw [answerOf, status_withMethods, status_finished]
    rfl
  | panic p =>
    rw [answerOf]
    split
    · rfl
    · rw [status_finished]
      rfl

/-- A failure is answered with neither 200 nor 201. -/
theorem status_of_halt (resource : Resource) (method : String) (h : Halt) :
    (answerOf resource method (.error h)).status ∉ [200, 201] := by
  rw [status_answerOf_error]
  have hmem := h.status_mem
  simp only [List.mem_cons, List.not_mem_nil, or_false] at hmem ⊢
  omega

theorem answer_of_method (board : Board) (b : Backend) (t : Table) {r : Request}
    (h : r.method ≠ "OPTIONS") :
    board.answer b t r =
      ((outcome board b t r).1,
        withOrigins board r
          (answerOf (Resource.ofTarget r.target) r.method (outcome board b t r).2)) := by
  unfold answer
  rw [if_neg h]

theorem answer_of_options (board : Board) (b : Backend) (t : Table) {r : Request}
    (h : r.method = "OPTIONS") :
    board.answer b t r =
      (t, withOrigins board r (permission board (Resource.ofTarget r.target) r.method)) := by
  unfold answer
  rw [if_pos h]

/-- An answer with status 200 or 201 is the reply that the request came to. -/
theorem reply_of_status (board : Board) (b : Backend) (t : Table) {r : Request}
    (hmethod : r.method ≠ "OPTIONS") (hstatus : (board.answer b t r).2.status ∈ [200, 201]) :
    ∃ reply, (outcome board b t r).2 = .ok reply ∧ reply.status = (board.answer b t r).2.status ∧
      (r.method ≠ "HEAD" → (board.answer b t r).2.body = reply.body.text) := by
  rw [answer_of_method board b t hmethod] at hstatus ⊢
  dsimp only at hstatus ⊢
  rw [status_withOrigins] at hstatus ⊢
  rw [body_withOrigins]
  cases hresult : (outcome board b t r).2 with
  | error h =>
    rw [hresult] at hstatus
    exact absurd hstatus (status_of_halt _ _ h)
  | ok reply =>
    refine ⟨reply, rfl, ?_, fun hhead => ?_⟩
    · rw [answerOf, status_finished]
      rfl
    · rw [answerOf, body_finished hhead]
      rfl

theorem status_of_error {board : Board} {b : Backend} {t : Table} {r : Request} {h : Halt}
    (hmethod : r.method ≠ "OPTIONS") (hresult : (outcome board b t r).2 = .error h) :
    (board.answer b t r).2.status = h.status := by
  rw [answer_of_method board b t hmethod, hresult, status_withOrigins, status_answerOf_error]

theorem status_of_failure {board : Board} {b : Backend} {t : Table} {r : Request} {f : Failure}
    (hmethod : r.method ≠ "OPTIONS") (h : (outcome board b t r).2 = .error (.failure f)) :
    (board.answer b t r).2.status = f.status :=
  status_of_error hmethod h

/-- What a request came to is its answer. -/
theorem answer_of_reply {board : Board} {b : Backend} {t : Table} {r : Request} {reply : Reply}
    (hmethod : r.method ≠ "OPTIONS") (h : (outcome board b t r).2 = .ok reply) :
    (board.answer b t r).2.status = reply.status ∧
      (r.method ≠ "HEAD" → (board.answer b t r).2.body = reply.body.text) := by
  rw [answer_of_method board b t hmethod, h]
  dsimp only
  rw [status_withOrigins, body_withOrigins, answerOf, status_finished]
  refine ⟨rfl, fun hhead => ?_⟩
  rw [body_finished hhead]
  rfl

/-! ## The guard -/

theorem outcome_of_admitted (board : Board) (b : Backend) (t : Table) {r : Request}
    (h : board.guard.admits r.headers = true) : outcome board b t r = carryOut board b t r := by
  unfold outcome
  rw [h, Bool.not_true, Bool.and_false, if_neg Bool.false_ne_true]

/-- A request that is let through and carried out is answered with its reply, on its table. -/
theorem answer_of_carried {board : Board} {b : Backend} {t new : Table} {r : Request}
    {reply : Reply} (hmethod : r.method ≠ "OPTIONS") (hadmits : board.guard.admits r.headers = true)
    (h : carryOut board b t r = (new, .ok reply)) :
    (board.answer b t r).2.status = reply.status ∧ (board.answer b t r).1 = new := by
  rw [← outcome_of_admitted board b t hadmits] at h
  refine ⟨(answer_of_reply hmethod (by rw [h])).1, ?_⟩
  rw [answer_of_method board b t hmethod, h]

/-- Its body is that of the reply. -/
theorem body_of_carried {board : Board} {b : Backend} {t : Table} {r : Request} {reply : Reply}
    (hmethod : r.method ≠ "OPTIONS") (hadmits : board.guard.admits r.headers = true)
    (h : (carryOut board b t r).2 = .ok reply) (hhead : r.method ≠ "HEAD") :
    (board.answer b t r).2.body = reply.body.text := by
  rw [← outcome_of_admitted board b t hadmits] at h
  exact (answer_of_reply hmethod h).2 hhead

/-- One that is let through and comes to no reply is answered with the status of its end. -/
theorem answer_of_halted {board : Board} {b : Backend} {t new : Table} {r : Request} {h : Halt}
    (hmethod : r.method ≠ "OPTIONS") (hadmits : board.guard.admits r.headers = true)
    (hcarried : carryOut board b t r = (new, .error h)) :
    (board.answer b t r).2.status = h.status ∧ (board.answer b t r).1 = new := by
  rw [← outcome_of_admitted board b t hadmits] at hcarried
  refine ⟨status_of_error hmethod (congrArg Prod.snd hcarried), ?_⟩
  rw [answer_of_method board b t hmethod, hcarried]

/-- The guard let a request through that came to a reply, or there was no guard. -/
theorem carryOut_of_reply {board : Board} {b : Backend} {t : Table} {r : Request} {reply : Reply}
    (h : (outcome board b t r).2 = .ok reply) :
    ((Resource.ofTarget r.target).isGuarded = true → board.guard.admits r.headers = true) ∧
      outcome board b t r = carryOut board b t r := by
  unfold outcome at h ⊢
  split at h
  next => cases h
  next hopen =>
    rw [if_neg hopen]
    refine ⟨fun hguarded => ?_, rfl⟩
    simpa [hguarded] using hopen

/-- An answer with status 200 or 201 tells what the handler came to, and leaves the table of the
handler. -/
theorem reply_of_carried {board : Board} {b : Backend} {t : Table} {r : Request}
    {result : Table × Except Halt Reply} (hmethod : r.method ≠ "OPTIONS")
    (hcarried : carryOut board b t r = result)
    (hstatus : (board.answer b t r).2.status ∈ [200, 201]) :
    ∃ reply, result.2 = .ok reply ∧ (board.answer b t r).1 = result.1 ∧
      (r.method ≠ "HEAD" → (board.answer b t r).2.body = reply.body.text) := by
  obtain ⟨reply, hreply, -, hbody⟩ := reply_of_status board b t hmethod hstatus
  have houtcome : outcome board b t r = result := (carryOut_of_reply hreply).2.trans hcarried
  rw [houtcome] at hreply
  refine ⟨reply, hreply, ?_, hbody⟩
  rw [answer_of_method board b t hmethod, houtcome]

/-- A request that carries a secret. -/
def carrying (secret method uri : String) (body : Bytes) (now : Int) : Request where
  method
  target := Http.Target.ofText uri
  headers := [("x-api-key", Utf8.encode secret)]
  body
  now
  random := none

/-- The board of settings that lay down nothing but a secret. -/
structure IsDefault (board : Board) (secret : String) : Prop where
  /-- It comes from these settings. -/
  settings : Board.ofSettings { ({} : Settings) with apiKey := some secret } = .ok board
  /-- So it has the bounds that hold if none are laid down. -/
  limits : board.limits = {}
  /-- It lets requests through that carry the secret. -/
  admits : ∀ headers : Http.Headers, headers.text? "x-api-key" = some secret →
    board.guard.admits headers = true

theorem exists_board (secret : String) (hsecret : Text.trim secret ≠ "") :
    ∃ board : Board, board.IsDefault secret :=
  ⟨_, ofSettings_secret_only secret hsecret, rfl, fun _ => Guard.admits_of_header⟩

theorem IsDefault.admits_carrying {board : Board} (h : board.IsDefault "k") (method uri : String)
    (body : Bytes) (now : Int) :
    board.guard.admits (carrying "k" method uri body now).headers = true :=
  h.admits _
    (by decide : Http.Headers.text? "x-api-key" [("x-api-key", Utf8.encode "k")] = some "k")

/-! ## Requests for a record -/

/-- A request for the record under a key. -/
def Asks (method key : String) (r : Request) : Prop :=
  r.method = method ∧ ∃ segment, Resource.ofTarget r.target = .record segment ∧
    keyOf segment = .ok key

theorem carryOut_of_get {board : Board} {b : Backend} {t : Table} {r : Request} {segment : String}
    (hmethod : r.method = "GET") (hresource : Resource.ofTarget r.target = .record segment) :
    carryOut board b t r = readRecord b segment t := by
  unfold carryOut
  rw [hmethod, hresource]
  rfl

/-- The record under a key is told, or that there is none, or why it cannot be read. -/
theorem readRecord_of_key {segment key : String} (hkey : keyOf segment = .ok key) (b : Backend)
    (t : Table) :
    readRecord b segment t = (t,
      match b.getRecord t key with
      | .ok (some record) => .ok ⟨200, record.toValue⟩
      | .ok none => fail (.noRecord key)
      | .error e => .error (.ofTrouble e)) := by
  unfold readRecord
  rw [hkey]
  show (Action.reading (fun t => calling (b.getRecord t key)) >>= _) t = _
  rw [Action.bind_eq_following]
  show Action.following _ (calling (b.getRecord t key)) t = _
  rcases b.getRecord t key with e | _ | record <;> rfl

/-- To read a record is to leave the table alone. -/
theorem isReading_readRecord (b : Backend) (segment : String) :
    Action.IsReading (readRecord b segment) := by
  refine .bind (Action.isReading_check _) fun key => .bind (Action.isReading_reading _) ?_
  rintro (_ | record)
  · exact Action.isReading_check _
  · exact Action.isReading_pure _

/-- A request to read a record leaves the table alone. -/
theorem table_of_get {board : Board} {b : Backend} {t : Table} {key : String} {r : Request}
    (hget : Asks "GET" key r) : (board.answer b t r).1 = t := by
  obtain ⟨hmethod, segment, hresource, -⟩ := hget
  rw [answer_of_method board b t (by rw [hmethod]; decide)]
  unfold outcome
  rw [carryOut_of_get hmethod hresource]
  split
  · rfl
  · exact isReading_readRecord b segment t

/-- A record that is read from the table is told by the answer. -/
theorem answer_of_get {board : Board} {b : Backend} {t : Table} {key : String} {r : Request}
    {record : Record} (hget : Asks "GET" key r) (hadmits : board.guard.admits r.headers = true)
    (h : b.getRecord t key = .ok (some record)) :
    (board.answer b t r).2.status = 200 ∧ (board.answer b t r).2.body = record.toValue.text := by
  obtain ⟨hmethod, segment, hresource, hkey⟩ := hget
  have hreply : (outcome board b t r).2 = .ok ⟨200, record.toValue⟩ := by
    rw [outcome_of_admitted board b t hadmits, carryOut_of_get hmethod hresource,
      readRecord_of_key hkey, h]
  obtain ⟨hstatus, hbody⟩ := answer_of_reply (by rw [hmethod]; decide) hreply
  exact ⟨hstatus, hbody (by rw [hmethod]; decide)⟩

/-- A record that is told by the answer was read from the table. -/
theorem getRecord_of_answer {board : Board} {b : Backend} {t : Table} {key : String} {r : Request}
    (hget : Asks "GET" key r) (hstatus : (board.answer b t r).2.status = 200) :
    ∃ record, b.getRecord t key = .ok (some record) ∧
      (board.answer b t r).2.body = record.toValue.text := by
  obtain ⟨hmethod, segment, hresource, hkey⟩ := hget
  obtain ⟨reply, hreply, -, hbody⟩ := reply_of_carried (by rw [hmethod]; decide)
    (carryOut_of_get hmethod hresource) (by rw [hstatus]; decide)
  rw [readRecord_of_key hkey] at hreply
  split at hreply
  next record hrecord =>
    cases hreply
    exact ⟨record, hrecord, hbody (by rw [hmethod]; decide)⟩
  next => cases hreply
  next => cases hreply

end Board

end RecordBoard
