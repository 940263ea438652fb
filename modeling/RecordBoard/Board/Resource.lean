import RecordBoard.Board.Handlers

/-!
# What is served where

A path names a resource, and a resource is served by certain methods. The path is taken as it is
written: nothing is decoded before the resource is found, so an encoded slash does not part
segments, and a slash too many names nothing.
-/

namespace RecordBoard.Board

open Store (Backend Table)
open Http (Request Target)

/-- What a path names. -/
inductive Resource where
  /-- Whether the service is there. -/
  | health
  /-- Whether the store answers. -/
  | ready
  /-- All records. -/
  | records
  /-- The record under the key that a segment spells. -/
  | record (segment : String)
  /-- The status of that record. -/
  | status (segment : String)
  /-- Where records are brought in bulk. -/
  | sync
  /-- Where a code host delivers events. -/
  | deliveries
  /-- Counts of records. -/
  | summary
  /-- Nothing. -/
  | nothing
deriving DecidableEq

namespace Resource

/-- The resource at a target. -/
def ofTarget (target : Target) : Resource :=
  match target.segments with
  | [""] | ["health"] => .health
  | ["ready"] => .ready
  | ["state"] => .records
  | ["state", segment] => if segment = "" then .nothing else .record segment
  | ["state", segment, "status"] => .status segment
  | ["sync"] => .sync
  | ["webhook", "github"] => .deliveries
  | ["stats"] => .summary
  | _ => .nothing

/-- The methods that a resource is served by. -/
def methods : Resource → List String
  | .health | .ready | .summary => ["GET", "HEAD"]
  | .records => ["GET", "HEAD", "POST"]
  | .record _ => ["GET", "HEAD", "PUT", "DELETE"]
  | .status _ => ["PUT"]
  | .sync | .deliveries => ["POST"]
  | .nothing => []

/-- Whether a request must carry the secret. -/
def isGuarded : Resource → Bool
  | .health | .ready => false
  | _ => true

end Resource

/-- What a method asks for. -/
inductive Verb where
  | get
  | put
  | post
  | delete
  | other
deriving DecidableEq

/-- The verb of a method. To ask for the headers of an answer is to ask for the answer. -/
def Verb.ofMethod (method : String) : Verb :=
  if method = "GET" ∨ method = "HEAD" then .get
  else if method = "PUT" then .put
  else if method = "POST" then .post
  else if method = "DELETE" then .delete
  else .other

/-- Carries out a request that the guard has let through, if it needs one. -/
def carryOut (board : Board) (b : Backend) (t : Table) (r : Request) : Table × Except Halt Reply :=
  match Resource.ofTarget r.target, Verb.ofMethod r.method with
  | .health, .get => (t, .ok (health board r))
  | .ready, .get => ready b t
  | .records, .get => listRecords board b r.target t
  | .records, .post => createRecord board b r t
  | .record segment, .get => readRecord b segment t
  | .record segment, .put => putRecord board b segment r t
  | .record segment, .delete => deleteRecord b segment t
  | .status segment, .put => moveRecord board b segment r t
  | .sync, .post => sync board b r t
  | .deliveries, .post => takeDelivery board b r t
  | .summary, .get => summary board b t
  | _, _ => (t, fail (.noRoute r.method r.target.path))

end RecordBoard.Board
