import RecordBoard.Settings
import RecordBoard.Text.Utf8
import RecordBoard.Toml.Reader

/-!
# Settings from a file

A configuration file is TOML with five sections. A section may be left out, and so may each of its
fields; what nobody knows is not looked at. A section may also be written as a list of values, which
are then its fields in the order given here. What is there must be of the right kind.

A file that cannot be read as a text, a text that does not spell settings, and settings that cannot
be used are three different faults.
-/

namespace RecordBoard.Settings

open Toml (Entries)

/-- Why there are no settings. -/
inductive Fault where
  /-- The file is missing or no text. -/
  | unreadable
  /-- The text does not spell settings. -/
  | malformed
  /-- The settings cannot be used. -/
  | refused (r : Refusal)
deriving DecidableEq

/-! ## Values of the right kind -/

/-- A text. -/
def asString? : Toml.Value → Option String
  | .string s => some s
  | _ => none

/-- A truth value. -/
def asBool? : Toml.Value → Option Bool
  | .boolean b => some b
  | _ => none

/-- An integer that is not negative. -/
def asNat? : Toml.Value → Option Nat
  | .integer i => if 0 ≤ i then some i.toNat else none
  | _ => none

/-- A list of texts. -/
def asStrings? : Toml.Value → Option (List String)
  | .array items => items.mapM asString?
  | _ => none

/-- A text that spells a socket address. -/
def asAddress? (v : Toml.Value) : Option SocketAddress := (asString? v).bind SocketAddress.ofText?

/-! ## Sections -/

/-- The fields of a section; the names are for one that is written as a list. A moment is a section
that nothing is known of. -/
def fields? (names : List String) : Toml.Value → Option Entries
  | .table _ entries => some entries
  | .array items => some (names.zip items)
  | .tables elements => some (names.zip (elements.map (.table .header)))
  | .moment _ => some []
  | _ => none

/-- The section with a given name. -/
def section? (document : Entries) (name : String) (names : List String) : Option Entries :=
  match document.get? name with
  | none => some []
  | some v => fields? names v

/-- A field of a section, if it is there, and nothing if it is of the wrong kind. -/
def field? {α : Type} (as? : Toml.Value → Option α) (fields : Entries) (name : String)
    (absent : α) : Option α :=
  match fields.get? name with
  | none => some absent
  | some v => as? v

/-- The settings that a table spells. -/
def ofEntries? (document : Entries) : Option Settings := do
  let d : Settings := {}
  let server ← section? document "server" ["listen", "service_name"]
  let auth ← section? document "auth" ["api_key", "header"]
  let cors ← section? document "cors" ["allowed_origins"]
  let limits ← section? document "limits"
    ["default_list_limit", "max_list_limit", "stats_scan_limit", "max_body_bytes"]
  let store ← section? document "store" ["data_dir", "in_memory"]
  return {
    listen := ← field? asAddress? server "listen" d.listen
    serviceName := ← field? asString? server "service_name" d.serviceName
    apiKey := ← field? (fun v => (asString? v).map some) auth "api_key" d.apiKey
    header := ← field? asString? auth "header" d.header
    origins := ← field? asStrings? cors "allowed_origins" d.origins
    limits := {
      defaultPage := ← field? asNat? limits "default_list_limit" d.limits.defaultPage
      largestPage := ← field? asNat? limits "max_list_limit" d.limits.largestPage
      summary := ← field? asNat? limits "stats_scan_limit" d.limits.summary
      body := ← field? asNat? limits "max_body_bytes" d.limits.body }
    dataDir := ← field? asString? store "data_dir" d.dataDir
    inMemory := ← field? asBool? store "in_memory" d.inMemory }

/-- The settings that a text spells. -/
def ofText (s : String) : Except Fault Settings :=
  match (Toml.read? s).bind ofEntries? with
  | some settings => .ok settings
  | none => .error .malformed

/-- The settings in the file with the given octets, or in none. -/
def ofFile (content : Option Bytes) : Except Fault Settings :=
  match content with
  | none => .error .unreadable
  | some octets =>
    match Utf8.decode octets with
    | .ok text => ofText text
    | .error _ => .error .unreadable

end RecordBoard.Settings
