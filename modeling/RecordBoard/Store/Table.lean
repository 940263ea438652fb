import RecordBoard.Store.Cursor

/-!
# The table of stored values

The store holds octets under text keys, in key order. It knows nothing of records. Everything that
can be seen of a table follows from looking up keys and from listing them, and listing goes page by
page: the keys that begin with a given stem, from behind a given key on, at most so many, and a
cursor if there are more.

## Main definitions

* `Table` — values under keys.
* `Table.page` — one page of keys.
* `Table.get?_insert`, `Table.get?_erase` — a write is seen at its key and nowhere else.
-/

namespace RecordBoard.Store

/-- Octets under text keys, in key order. -/
structure Table where
  /-- The keys with their values. -/
  entries : Keyed Bytes
  /-- The keys ascend. -/
  isSorted : Keyed.IsSorted entries

namespace Table

/-- The table without keys. -/
def empty : Table := ⟨[], List.Pairwise.nil⟩

/-- The value under a key. -/
def get? (key : String) (t : Table) : Option Bytes := Keyed.get? key t.entries

/-- The table with `value` under `key`. -/
def insert (key : String) (value : Bytes) (t : Table) : Table :=
  ⟨Keyed.insert key value t.entries, t.isSorted.insert key value⟩

/-- The table without `key`. -/
def erase (key : String) (t : Table) : Table := ⟨Keyed.erase key t.entries, t.isSorted.erase key⟩

/-- The table of a list of values under keys, a later one taking the place of an earlier one. -/
def ofList (l : List (String × Bytes)) : Table := l.foldl (fun t e => t.insert e.1 e.2) empty

/-- The keys, ascending. -/
def keys (t : Table) : List String := t.entries.map (·.1)

/-- The keys among `keys` that are there, with their values. -/
def getMany (keys : List String) (t : Table) : List (String × Bytes) :=
  keys.filterMap fun key => (t.get? key).map (key, ·)

/-- A write is seen at its key and nowhere else. -/
@[simp] theorem get?_insert (key other : String) (value : Bytes) (t : Table) :
    (t.insert key value).get? other = if other = key then some value else t.get? other :=
  Keyed.get?_insert key other value t.entries

/-- A deletion is seen at its key and nowhere else. -/
@[simp] theorem get?_erase (key other : String) (t : Table) :
    (t.erase key).get? other = if other = key then none else t.get? other := by
  by_cases h : other = key
  · simp [get?, erase, h]
  · simp [get?, erase, h, Keyed.get?_erase_of_ne h]

/-! ## Pages -/

/-- Whether a key begins with a stem. -/
def begins (stem key : String) : Bool := stem.toList.isPrefixOf key.toList

/-- Whether a listing of a stem that goes on from behind `after` has passed a key already. -/
def isPassed (stem : String) (after : Option String) (key : String) : Bool :=
  match after with
  | some last => if stem ≤ last then key ≤ last else key < stem
  | none => key < stem

/-- The keys that begin with a stem, from behind `after` on. Keys with one stem stand side by
side. -/
def run (stem : String) (after : Option String) (t : Table) : List String :=
  (t.keys.dropWhile (isPassed stem after)).takeWhile (begins stem)

end Table

/-- One page of keys. -/
structure Page where
  /-- The keys, ascending. -/
  keys : List String
  /-- Where the next page begins, if there are more. -/
  cursor : Option String
deriving DecidableEq

/-- The page that shows nothing. -/
def Page.empty : Page := ⟨[], none⟩

/-- The page of at most `limit` keys that begin with a stem, from behind `after` on. -/
def Table.page (stem : String) (limit : Nat) (after : Option String) (t : Table) : Page :=
  let run := t.run stem after
  let keys := run.take limit
  ⟨keys, if limit < run.length then keys.getLast?.map Cursor.encode else none⟩

end RecordBoard.Store
