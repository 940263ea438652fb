import RecordBoard.Json.Fault

/-!
# How a store call can end badly

A store refuses a call with a failure, which says what was being done and what went wrong in words.
It can also break down altogether: then there may be a text or none, and nothing after the call is
done.

The two are kept apart because they travel differently. A failure is an answer like any other, which
one record of many may have; a breakdown ends the request.
-/

namespace RecordBoard.Store

/-- What a store was doing when it failed. -/
inductive Activity where
  | opening
  | transaction
  | table
  | reading
  | writing
  | serializing
  | deserializing
  | resuming
deriving DecidableEq

/-- How a message begins that tells of a failure. -/
def Activity.text : Activity → String
  | .opening => "failed to open database"
  | .transaction => "transaction error"
  | .table => "table error"
  | .reading => "read error"
  | .writing => "write error"
  | .serializing => "serialization error"
  | .deserializing => "deserialization error"
  | .resuming => "invalid cursor"

/-- A failure of a store call. -/
structure Failure where
  /-- What was being done. -/
  activity : Activity
  /-- What went wrong. -/
  detail : String
deriving DecidableEq

/-- The wording of a failure. -/
def Failure.message (f : Failure) : String := f.activity.text ++ ": " ++ f.detail

/-- The failure to read a stored value as a record. -/
def Failure.unreadableRecord (f : Json.Fault) : Failure := ⟨.deserializing, f.message⟩

/-- What a breakdown leaves behind. -/
inductive Panic where
  /-- A text. -/
  | text (s : String)
  /-- Something that is no text. -/
  | wordless
deriving DecidableEq

/-- What an answer says about a breakdown. -/
def Panic.message : Panic → String
  | .text s => s
  | .wordless => "handler panicked"

/-- Why a store call did not return. -/
inductive Trouble where
  /-- It failed. -/
  | failure (f : Failure)
  /-- It broke down. -/
  | panic (p : Panic)
deriving DecidableEq

end RecordBoard.Store
