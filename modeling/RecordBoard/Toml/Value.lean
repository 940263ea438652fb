/-!
# TOML values

A configuration file is a table of tables. How a table came to be decides what may still be added to
it, so tables remember it: one that is written in braces is closed, one that has a header of its own
may not get another, one that exists only because a header below it was given may still get its own,
and one that came from dotted keys may get further dotted keys.

Numbers with a fraction and moments are kept by their text alone, since no setting is either.
-/

namespace RecordBoard.Toml

/-- How a table came to be. -/
inductive Origin where
  /-- It is written in braces. -/
  | braces
  /-- It has a header. -/
  | header
  /-- A table below it has a header. -/
  | implied
  /-- It stands in a dotted key. -/
  | dotted
deriving DecidableEq

/-- A TOML value. -/
inductive Value where
  /-- A text. -/
  | string (s : String)
  /-- An integer. -/
  | integer (i : Int)
  /-- Another number. -/
  | float (text : String)
  /-- A truth value. -/
  | boolean (b : Bool)
  /-- A date, a time of day, or both. -/
  | moment (text : String)
  /-- A list of values. -/
  | array (items : List Value)
  /-- Values under keys. -/
  | table (origin : Origin) (entries : List (String × Value))
  /-- A list of tables, each with a header. -/
  | tables (elements : List (List (String × Value)))

instance : Inhabited Value := ⟨.boolean false⟩

/-- Values under keys, each key once. -/
abbrev Entries := List (String × Value)

namespace Entries

/-- The value under a key. -/
def get? (key : String) (t : Entries) : Option Value := (t.find? fun e => e.1 == key).map (·.2)

/-- The entries with another value under a key. -/
def put (key : String) (v : Value) (t : Entries) : Entries :=
  if t.any fun e => e.1 == key then t.map fun e =>
    if e.1 == key then (key, v) else e else t ++ [(key, v)]

/-- The entries with a value under a dotted key, if nothing stands there and every table on the way
may take it. -/
def define (v : Value) : List String → Entries → Option Entries
  | [], _ => none
  | [key], t =>
    match t.get? key with
    | none => some (t.put key v)
    | some _ => none
  | key :: next :: path, t =>
    match t.get? key with
    | none => (define v (next :: path) []).map fun inner => t.put key (.table .dotted inner)
    | some (.table origin inner) =>
      -- a table that was only implied may be passed through, but takes no entry itself
      if origin = .dotted ∨ (origin = .implied ∧ path ≠ []) then
        (define v (next :: path) inner).map fun inner => t.put key (.table origin inner)
      else none
    | some _ => none

/-- The entries with the value at a path of headers changed, if the path can be gone. -/
def change (f : Option Value → Option Value) : List String → Entries → Option Entries
  | [], _ => none
  | [key], t => (f (t.get? key)).map fun v => t.put key v
  | key :: next :: path, t =>
    match t.get? key with
    | none => (change f (next :: path) []).map fun inner => t.put key (.table .implied inner)
    | some (.table .braces _) => none
    | some (.table origin inner) => (change f (next :: path) inner).map fun inner =>
      t.put key (.table origin inner)
    | some (.tables elements) => do
      let inner ← change f (next :: path) (← elements.getLast?)
      return t.put key (.tables (elements.dropLast ++ [inner]))
    | some _ => none

/-- The entries with a list of dotted keys defined, one after the other. -/
def defineAll (t : Entries) (l : List (List String × Value)) : Option Entries :=
  l.foldlM (fun t e => define e.2 e.1 t) t

end Entries

/-! ## Documents -/

/-- A line of a document. -/
inductive Line where
  /-- A header in single brackets. -/
  | table (path : List String)
  /-- A header in double brackets. -/
  | element (path : List String)
  /-- A key with its value. -/
  | entry (path : List String) (v : Value)

/-- Keys with values under a header, or in front of the first one. -/
structure Section where
  /-- The header, unless there is none. -/
  header : Option Line
  /-- The keys with their values. -/
  entries : List (List String × Value)

/-- Lines cut into sections; the first has no header. -/
def sections (lines : List Line) : List Section :=
  let (entries, rest) := lines.foldr (fun line (entries, rest) =>
    match line with
    | .entry path v => ((path, v) :: entries, rest)
    | header =>
      ([], ⟨some header, entries⟩ :: rest)) (([], []) : List (List String × Value) × List Section)
  ⟨none, entries⟩ :: rest

/-- The document with one more section. -/
def addSection (t : Entries) (s : Section) : Option Entries :=
  match s.header with
  | some (.table path) =>
    t.change (fun
      | none => (Entries.defineAll [] s.entries).map (.table .header)
      | some (.table .implied inner) => (Entries.defineAll inner s.entries).map (.table .header)
      | some _ => none) path
  | some (.element path) =>
    t.change (fun
      | none => (Entries.defineAll [] s.entries).map fun new => .tables [new]
      | some (.tables elements) => (Entries.defineAll [] s.entries).map fun new =>
        .tables (elements ++ [new])
      | some _ => none) path
  | _ => t.defineAll s.entries

/-- The table that lines come to, if none of them contradicts another. -/
def ofLines? (lines : List Line) : Option Entries := (sections lines).foldlM addSection []

end RecordBoard.Toml
