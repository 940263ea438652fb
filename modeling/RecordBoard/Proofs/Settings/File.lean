import RecordBoard.Proofs.Text.Malformed
import RecordBoard.Settings.File

/-!
# Which settings a file spells

A file spells the fields that are written in its sections.  For a field that is left out, alone or
with its whole section, there is what holds from the start.

## Main definitions

* `HasSection`, `HasField` — the fields of a section, and the value of a field, written or left out.
* `IsSpelledBy` — the settings that a document spells.

## Main results

* `ofEntries?_eq_some_iff` — a document is read as the settings that it spells.
* `ofFile_eq_ok_iff` — the settings in a file are those that its text spells.
-/

namespace RecordBoard.Settings

open Toml (Entries)

/-- The fields of a section of a document, with their names in order. -/
inductive HasSection (document : Entries) (name : String) (names : List String) : Entries → Prop
  /-- The section is left out, and has none. -/
  | absent (h : document.get? name = none) : HasSection document name names []
  /-- They are written in it. -/
  | there {v : Toml.Value} {fields : Entries} (h : document.get? name = some v)
    (hfields : fields? names v = some fields) :
      HasSection document name names fields

/-- The value of a field, which is written as `as?` says. -/
inductive HasField {α : Type} (as? : Toml.Value → Option α) (fields : Entries) (name : String)
    (start : α) : α → Prop
  /-- The field is left out, and has the value from the start. -/
  | absent (h : fields.get? name = none) : HasField as? fields name start start
  /-- It is written. -/
  | there {v : Toml.Value} {x : α} (h : fields.get? name = some v) (hx : as? v = some x) :
    HasField as? fields name start x

variable {document fields : Entries} {name : String}

theorem section?_eq_some_iff {names : List String} : section? document name names = some fields ↔
    HasSection document name names fields := by
  unfold section?
  constructor
  · intro h
    split at h
    next hnone =>
      cases h
      exact .absent hnone
    next hsome => exact .there hsome h
  · intro h
    cases h with
    | absent hnone => rw [hnone]
    | there hsome hfields =>
      rw [hsome]
      exact hfields

theorem field?_eq_some_iff {α : Type} {as? : Toml.Value → Option α} {start x : α} :
    field? as? fields name start = some x ↔ HasField as? fields name start x := by
  unfold field?
  constructor
  · intro h
    split at h
    next hnone =>
      cases h
      exact .absent hnone
    next hsome => exact .there hsome h
  · intro h
    cases h with
    | absent hnone => rw [hnone]
    | there hsome hx =>
      rw [hsome]
      exact hx

/-- Settings are what a document spells. -/
structure IsSpelledBy (document : Entries) (s : Settings) : Prop where
  /-- Where requests come in, and under which name. -/
  server : ∃ fields, HasSection document "server" ["listen", "service_name"] fields ∧
    HasField asAddress? fields "listen" (.short 0 0 0 0 8787) s.listen ∧
    HasField asString? fields "service_name" "stateboard" s.serviceName
  /-- The secret, and the header for it. -/
  auth : ∃ fields, HasSection document "auth" ["api_key", "header"] fields ∧
    HasField (fun v => (asString? v).map some) fields "api_key" none s.apiKey ∧
    HasField asString? fields "header" "x-api-key" s.header
  /-- The origins. -/
  cors : ∃ fields, HasSection document "cors" ["allowed_origins"] fields ∧
    HasField asStrings? fields "allowed_origins" ["*"] s.origins
  /-- The bounds. -/
  limits : ∃ fields, HasSection document "limits"
      ["default_list_limit", "max_list_limit", "stats_scan_limit", "max_body_bytes"] fields ∧
    HasField asNat? fields "default_list_limit" 100 s.limits.defaultPage ∧
    HasField asNat? fields "max_list_limit" 1000 s.limits.largestPage ∧
    HasField asNat? fields "stats_scan_limit" 1000 s.limits.summary ∧
    HasField asNat? fields "max_body_bytes" 33554432 s.limits.body
  /-- Where the table is kept. -/
  store : ∃ fields, HasSection document "store" ["data_dir", "in_memory"] fields ∧
    HasField asString? fields "data_dir" "/var/lib/stateboard" s.dataDir ∧
    HasField asBool? fields "in_memory" false s.inMemory

/-- The first of two reads that succeed one after the other. -/
theorem exists_of_bind_eq_some {α β : Type} {read : Option α} {next : α → Option β} {b : β}
    (h : read >>= next = some b) :
    ∃ a, read = some a ∧ next a = some b :=
  Option.bind_eq_some_iff.1 h

/-- A document is read as the settings that it spells. -/
theorem ofEntries?_eq_some_iff {s : Settings} :
    ofEntries? document = some s ↔ IsSpelledBy document s := by
  unfold ofEntries?
  constructor
  · intro h
    obtain ⟨server, hserver, h⟩ := exists_of_bind_eq_some h
    obtain ⟨auth, hauth, h⟩ := exists_of_bind_eq_some h
    obtain ⟨cors, hcors, h⟩ := exists_of_bind_eq_some h
    obtain ⟨limits, hlimits, h⟩ := exists_of_bind_eq_some h
    obtain ⟨store, hstore, h⟩ := exists_of_bind_eq_some h
    obtain ⟨listen, hlisten, h⟩ := exists_of_bind_eq_some h
    obtain ⟨serviceName, hserviceName, h⟩ := exists_of_bind_eq_some h
    obtain ⟨apiKey, hapiKey, h⟩ := exists_of_bind_eq_some h
    obtain ⟨header, hheader, h⟩ := exists_of_bind_eq_some h
    obtain ⟨origins, horigins, h⟩ := exists_of_bind_eq_some h
    obtain ⟨defaultPage, hdefaultPage, h⟩ := exists_of_bind_eq_some h
    obtain ⟨largestPage, hlargestPage, h⟩ := exists_of_bind_eq_some h
    obtain ⟨summary, hsummary, h⟩ := exists_of_bind_eq_some h
    obtain ⟨body, hbody, h⟩ := exists_of_bind_eq_some h
    obtain ⟨dataDir, hdataDir, h⟩ := exists_of_bind_eq_some h
    obtain ⟨inMemory, hinMemory, h⟩ := exists_of_bind_eq_some h
    cases h
    rw [section?_eq_some_iff] at hserver hauth hcors hlimits hstore
    rw [field?_eq_some_iff] at hlisten hserviceName hapiKey hheader horigins hdataDir hinMemory
    rw [field?_eq_some_iff] at hdefaultPage hlargestPage hsummary hbody
    exact ⟨⟨server, hserver, hlisten, hserviceName⟩, ⟨auth, hauth, hapiKey, hheader⟩,
      ⟨cors, hcors, horigins⟩,
      ⟨limits, hlimits, hdefaultPage, hlargestPage, hsummary, hbody⟩,
        ⟨store, hstore, hdataDir, hinMemory⟩⟩
  · rintro ⟨⟨server, hserver, hlisten, hserviceName⟩, ⟨auth, hauth, hapiKey, hheader⟩,
      ⟨cors, hcors, horigins⟩,
      ⟨limits, hlimits, hdefaultPage, hlargestPage, hsummary, hbody⟩,
        ⟨store, hstore, hdataDir, hinMemory⟩⟩
    rw [← section?_eq_some_iff] at hserver hauth hcors hlimits hstore
    rw [← field?_eq_some_iff] at hlisten hserviceName hapiKey hheader horigins hdataDir hinMemory
    rw [← field?_eq_some_iff] at hdefaultPage hlargestPage hsummary hbody
    simp only [hserver, hauth, hcors, hlimits, hstore, Option.bind_eq_bind, Option.bind_some,
      hlisten, hserviceName, hapiKey, hheader, horigins, hdefaultPage, hlargestPage, hsummary,
        hbody, hdataDir, hinMemory]
    rfl

theorem ofText_eq_ok_iff {text : String} {s : Settings} :
    ofText text = .ok s ↔ ∃ document, Toml.read? text = some document ∧ IsSpelledBy document s := by
  have hbind : (Toml.read? text).bind ofEntries? = some s ↔
      ∃ document, Toml.read? text = some document ∧ IsSpelledBy document s := by
    simp only [Option.bind_eq_some_iff, ofEntries?_eq_some_iff]
  rw [← hbind, ofText]
  cases (Toml.read? text).bind ofEntries? <;> simp

/-- The settings in a file are those that its text spells. -/
theorem ofFile_eq_ok_iff {content : Option Bytes} {s : Settings} :
    ofFile content = .ok s ↔ ∃ text document, content = some (Utf8.encode text) ∧
      Toml.read? text = some document ∧ IsSpelledBy document s := by
  constructor
  · intro h
    unfold ofFile at h
    split at h
    · cases h
    · split at h
      next octets _ text htext =>
        obtain ⟨document, hread, hspelt⟩ := ofText_eq_ok_iff.1 h
        exact ⟨text, document, by rw [Utf8.decode_eq_ok_iff.1 htext], hread, hspelt⟩
      · cases h
  · rintro ⟨text, document, rfl, hread, hspelt⟩
    unfold ofFile
    dsimp only
    rw [Utf8.decode_encode]
    exact ofText_eq_ok_iff.2 ⟨document, hread, hspelt⟩

/-- Otherwise the file is missing or no text, or the text spells none. -/
theorem fault_of_ofFile {content : Option Bytes} {f : Fault} (h : ofFile content = .error f) :
    f = .unreadable ∨ f = .malformed := by
  unfold ofFile ofText at h
  split at h
  · cases h
    exact .inl rfl
  · split at h
    · split at h
      · cases h
      · cases h
        exact .inr rfl
    · cases h
      exact .inl rfl

end RecordBoard.Settings
