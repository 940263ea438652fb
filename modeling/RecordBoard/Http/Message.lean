import RecordBoard.Http.Header
import RecordBoard.Http.Target
import RecordBoard.Keyed

/-!
# Requests and answers

A request comes with what the service reads besides it: the clock, and the random source, which may
fail. That makes an answer a function of the request, the table and the settings.
-/

namespace RecordBoard.Http

/-- A request, with the clock and the random source as it meets them. -/
structure Request where
  /-- The method. Its case counts. -/
  method : String
  /-- What the request is for. -/
  target : Target
  /-- The headers. -/
  headers : Headers
  /-- The body. -/
  body : Bytes
  /-- The clock, in seconds. -/
  now : Int
  /-- What the random source gives, unless it fails. -/
  random : Option Bytes

/-- An answer. -/
structure Answer where
  /-- The status. -/
  status : Nat
  /-- The headers, by name. -/
  headers : Keyed String
  /-- The body. -/
  body : String
deriving DecidableEq

/-- The answer with one more header. -/
def Answer.withHeader (name value : String) (a : Answer) : Answer :=
  { a with headers := Keyed.insert name value a.headers }

end RecordBoard.Http
