import RecordBoard.Settings

/-!
# A board

A board is what settings come to once they are found usable: a guard, bounds, and the origins whose
pages may read its answers. The secret itself is no longer in it.
-/

namespace RecordBoard

/-- The origins whose pages may read answers. -/
inductive Origins where
  /-- All of them. -/
  | any
  /-- These. The wildcard cannot be one of them: to lay it down as an origin breaks down. -/
  | only (list : List String) (named : "*" ∉ list)

/-- What answers requests. -/
structure Board where
  /-- The name that the service goes by. -/
  serviceName : String
  /-- What a request must carry. -/
  guard : Guard
  /-- Bounds on requests. -/
  limits : Limits
  /-- Whose pages may read answers. -/
  origins : Origins

/-- Whether a text can be the value of a header. -/
def isHeaderText (s : String) : Bool :=
  s.toList.all fun c => (0x20 ≤ c.toNat && c.toNat ≠ 0x7F) || c == '\t'

/-- The origins of a list, or the first that no request can come from. -/
def Origins.ofList (list : List String) : Except Settings.Refusal Origins :=
  if h : allowsAny list then .ok .any
  else match list.find? fun origin => !isHeaderText origin with
    | some origin => .error (.badOrigin origin)
    | none => .ok (.only list fun hstar => h (allowsAny_iff.2 (.inr hstar)))

/-- The board of usable settings. -/
def Board.ofSettings (s : Settings) : Except Settings.Refusal Board := do
  s.check
  match Guard.make? (s.apiKey.getD "") s.header with
  | none => .error (.badHeader s.header)
  | some guard => return ⟨s.serviceName, guard, s.limits, ← Origins.ofList s.origins⟩

end RecordBoard
