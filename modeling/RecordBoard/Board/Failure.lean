import RecordBoard.Store.Trouble

/-!
# Failures of a request

A request that is not carried out is answered with a status and a message. The causes are told apart
here; the message is made from the cause, and the status too.
-/

namespace RecordBoard.Board

/-- Why a request is not carried out. -/
inductive Failure where
  /-- It does not carry the secret. -/
  | unauthorized
  /-- Nothing is served by this method at this path. -/
  | noRoute (method path : String)
  /-- There is no record under the key. -/
  | noRecord (key : String)
  /-- The store failed. -/
  | store (f : Store.Failure)
  /-- The body is not the JSON that was asked for. -/
  | badBody (f : Json.Fault)
  /-- The body holds no records. -/
  | noRecords
  /-- The body is too long. -/
  | longBody
  /-- The path does not spell a key. -/
  | badPath
  /-- A field of the query comes twice. -/
  | repeatedField (name : String)
  /-- There is no such status. -/
  | unknownStatus (name : String)
  /-- The random source failed. -/
  | noRandom

namespace Failure

/-- The status of the answer to a failure. -/
def status : Failure → Nat
  | .unauthorized => 401
  | .noRoute .. | .noRecord _ => 404
  | _ => 500

/-- The wording of a failure. -/
def message : Failure → String
  | .unauthorized => "unauthorized"
  | .noRoute method path => s!"route not found: {method} {path}"
  | .noRecord key => s!"entity not found: {key}"
  | .store f => f.message
  | .badBody f => s!"invalid JSON body: {f.message}"
  | .noRecords => "invalid JSON body: data did not match any variant of untagged enum SyncBody"
  | .longBody => "invalid body: Failed to buffer the request body: length limit exceeded"
  | .badPath => "invalid path: Invalid URL: Invalid UTF-8 in `key`"
  | .repeatedField name =>
    s!"invalid query: Failed to deserialize query string: duplicate field `{name}`"
  | .unknownStatus name => s!"unknown status: {name}"
  | .noRandom => "id generation: Input/output error"

end Failure

/-- Why a request ends without a reply. -/
inductive Halt where
  /-- It is not carried out. -/
  | failure (f : Failure)
  /-- The store broke down. -/
  | panic (p : Store.Panic)

/-- What a request comes to whose store call did not return. -/
def Halt.ofTrouble : Store.Trouble → Halt
  | .failure f => .failure (.store f)
  | .panic p => .panic p

/-- A failure as the end of a request. -/
def fail {α : Type} (f : Failure) : Except Halt α := .error (.failure f)

/-- A store call within a request. -/
def calling {α : Type} (result : Except Store.Trouble α) : Except Halt α :=
  result.mapError Halt.ofTrouble

end RecordBoard.Board
