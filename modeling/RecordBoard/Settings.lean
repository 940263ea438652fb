import RecordBoard.Guard
import RecordBoard.Net.SocketAddress

/-!
# Settings

Everything that can be configured has a value from the start but one thing, the shared secret, which
must be given. Before they are used the settings are checked, in a fixed order, and the first thing
that is wrong is named.

## Main definitions

* `Settings`, `Limits` — what can be configured.
* `Settings.check` — the check before use.
* `Limits.pageSize?` — how many records a page holds, given what was asked for.
* `Settings.databasePath` — where the table is kept.
-/

namespace RecordBoard

/-- Bounds on what one request may do. -/
structure Limits where
  /-- How many records a page holds if nothing is asked for. -/
  defaultPage : Nat := 100
  /-- How many records a page holds at most. -/
  largestPage : Nat := 1000
  /-- How many records a summary looks at. -/
  summary : Nat := 1000
  /-- How many octets a body has at most. -/
  body : Nat := 33554432
deriving DecidableEq

/-- What can be configured. -/
structure Settings where
  /-- Where requests come in. -/
  listen : SocketAddress := .short 0 0 0 0 8787
  /-- The name that the service goes by. -/
  serviceName : String := "stateboard"
  /-- The shared secret. -/
  apiKey : Option String := none
  /-- The header that may carry the secret. -/
  header : String := "x-api-key"
  /-- The origins whose pages may read answers. -/
  origins : List String := ["*"]
  /-- Bounds on requests. -/
  limits : Limits := {}
  /-- The directory of the table. -/
  dataDir : String := "/var/lib/stateboard"
  /-- Whether the table is kept in memory only. -/
  inMemory : Bool := false
deriving DecidableEq

/-- Whether pages of any origin may read answers. -/
def allowsAny (origins : List String) : Bool := origins.isEmpty || origins.contains "*"

theorem allowsAny_iff {origins : List String} :
    allowsAny origins = true ↔ origins = [] ∨ "*" ∈ origins := by
  simp [allowsAny]

/-! ## Page sizes -/

/-- The number that a text spells: digits, with or without a plus sign, below `2 ^ 64`. -/
def wordOfText? (s : String) : Option Nat :=
  let digits : List Char := match s.toList with
    | '+' :: rest => rest
    | chars => chars
  let n : Nat := digits.foldl (fun n c => n * 10 + (c.toNat - '0'.toNat)) 0
  if digits ≠ [] ∧ digits.all (fun c => '0' ≤ c && c ≤ '9') ∧ n < UInt64.size then some n else none

/--
How many records a page holds, given what was asked for: at least one and at most the largest page.
There is no such number if pages hold nothing at most.
-/
def Limits.pageSize? (limits : Limits) (asked : Option String) : Option Nat :=
  let size := (asked.bind fun s => wordOfText? (Text.trim s)).getD limits.defaultPage
  if limits.largestPage < 1 then none else some (min (max size 1) limits.largestPage)

namespace Settings

/-! ## Checks -/

/-- Why settings cannot be used. -/
inductive Refusal where
  /-- There is no secret. -/
  | keyMissing
  /-- The secret is empty, white space aside. -/
  | keyEmpty
  /-- The name of the header is empty, white space aside. -/
  | headerEmpty
  /-- A limit lets nothing through. -/
  | limitZero
  /-- A page that nobody asked for is empty or larger than the largest. -/
  | defaultPage (size largest : Nat)
  /-- No header can have the name. -/
  | badHeader (header : String)
  /-- No request can come from the origin. -/
  | badOrigin (origin : String)
deriving DecidableEq

/-- The wording of a refusal. -/
def Refusal.message (r : Refusal) : String :=
  "invalid config: " ++ match r with
    | .keyMissing => "auth.api_key is not set"
    | .keyEmpty => "auth.api_key is empty"
    | .headerEmpty => "auth.header is empty"
    | .limitZero => "limits must be greater than zero"
    | .defaultPage size largest => s!"default_list_limit {size} must be within 1..={largest}"
    | .badHeader header => Guard.badHeaderMessage header
    | .badOrigin origin =>
      s!"invalid CORS origin {Text.quoted origin}: failed to parse header value"

/-- The bounds let something through, and a page that nobody asked for is within them. -/
def checkLimits (limits : Limits) : Except Refusal Unit :=
  if limits.largestPage = 0 ∨ limits.summary = 0 ∨ limits.body = 0 then .error .limitZero
  else if limits.defaultPage = 0 ∨ limits.largestPage < limits.defaultPage then
    .error (.defaultPage limits.defaultPage limits.largestPage)
  else .ok ()

/-- What must hold of settings before they are used. -/
def check (s : Settings) : Except Refusal Unit :=
  match s.apiKey with
  | none => .error .keyMissing
  | some key =>
    if Text.trim key = "" then .error .keyEmpty
    else if Text.trim s.header = "" then .error .headerEmpty
    else checkLimits s.limits

/-! ## Paths -/

/-- The path of a file in a directory. -/
def inDirectory (dir name : String) : String :=
  if dir = "" then name else if dir.toList.getLast? = some '/' then dir ++ name
  else dir ++ "/" ++ name

/-- The file that the table is kept in. -/
def databasePath (s : Settings) : String := inDirectory s.dataDir "stateboard.redb"

end Settings

end RecordBoard
