import RecordBoard.Board.Resource

/-!
# Answers

Every request is answered. A question whether a page of another origin may send a request is
answered at once, whatever it is about. All other requests meet the guard, where there is one,
before anything is looked at; what they come to is then put into an answer.

An answer tells its length, and the answer to a method that asks for the headers alone is left
without its body. The one exception is a breakdown behind the guard, which is caught outside of
where these two things are done. An answer to a method that a resource is not served by tells the
methods that it is served by, even if the guard has turned the request away.

## Main definitions

* `Board.answer` — the answer to a request, and the table that it leaves.
* `Board.run` — the answers to a sequence of requests.
-/

namespace RecordBoard.Board

open Json (Value)
open Store (Backend Table)
open Http (Request Answer)

/-! ## Forms of answers -/

/-- An answer with a JSON body. -/
def jsonAnswer (status : Nat) (body : Value) : Answer where
  status
  headers := [("content-type", "application/json")]
  body := body.text

/-- The body that tells of an error. -/
def errorBody (message : String) : Value :=
  .object [("success", .boolean false), ("error", .string message)]

/-- The answer with its length told, and without its body if only the headers are asked for. -/
def finished (method : String) (a : Answer) : Answer :=
  let sized := a.withHeader "content-length" (toString a.body.utf8ByteSize)
  if method = "HEAD" then { sized with body := "" } else sized

/-- The methods of a resource, as a header tells them. -/
def allowed (resource : Resource) : String := ",".intercalate resource.methods

/-- The answer with the methods of the resource told, if it is not served by the one that was
used. -/
def withMethods (resource : Resource) (method : String) (a : Answer) : Answer :=
  if resource = .nothing ∨ method ∈ resource.methods then a
  else a.withHeader "allow" (allowed resource)

/-- What a request came to, as an answer. -/
def answerOf (resource : Resource) (method : String) : Except Halt Reply → Answer
  | .ok reply => finished method (jsonAnswer reply.status reply.body)
  | .error (.failure f) =>
    withMethods resource method (finished method (jsonAnswer f.status (errorBody f.message)))
  | .error (.panic p) =>
    let told := jsonAnswer 500 (errorBody p.message)
    if resource.isGuarded then told else finished method told

/-! ## Other origins -/

/-- The origin that an answer may be read by: any, or the one of the request if it is among those
laid down. -/
def readableBy? (board : Board) (r : Request) : Option String :=
  match board.origins with
  | .any => some "*"
  | .only list _ => (r.headers.first? "origin").bind fun value => list.find? fun origin =>
    Utf8.encode origin == value

/-- The answer with what pages of other origins are told. -/
def withOrigins (board : Board) (r : Request) (a : Answer) : Answer :=
  let a :=
    a.withHeader "vary" "origin, access-control-request-method, access-control-request-headers"
  match readableBy? board r with
  | some origin => a.withHeader "access-control-allow-origin" origin
  | none => a

/-- The answer to the question whether a page of another origin may send a request. -/
def permission (board : Board) (resource : Resource) (method : String) : Answer :=
  let told : Answer :=
    { status := 200
      headers := Keyed.ofList
        [("access-control-allow-headers",
          s!"content-type,authorization,accept,{board.guard.header},{eventHeader}"),
         ("access-control-allow-methods", "GET,POST,PUT,PATCH,DELETE,OPTIONS")]
      body := "" }
  if resource.isGuarded then told else withMethods resource method (finished method told)

/-! ## Requests -/

/-- What a request comes to, and the table that it leaves. -/
def outcome (board : Board) (b : Backend) (t : Table) (r : Request) : Table × Except Halt Reply :=
  if (Resource.ofTarget r.target).isGuarded && !board.guard.admits r.headers then
    (t, fail .unauthorized)
  else carryOut board b t r

/-- The answer to a request, and the table that it leaves. -/
def answer (board : Board) (b : Backend) (t : Table) (r : Request) : Table × Answer :=
  let resource := Resource.ofTarget r.target
  if r.method = "OPTIONS" then (t, withOrigins board r (permission board resource r.method))
  else
    let (new, result) := outcome board b t r
    (new, withOrigins board r (answerOf resource r.method result))

/-- The answers to requests that come one after the other, and the table that they leave. -/
def run (board : Board) (b : Backend) (t : Table) : List Request → Table × List Answer
  | [] => (t, [])
  | r :: rest =>
    let (new, a) := board.answer b t r
    let (last, answers) := board.run b new rest
    (last, a :: answers)

end RecordBoard.Board
