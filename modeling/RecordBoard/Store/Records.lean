import RecordBoard.Store.Backend
import RecordBoard.Record.Stamp

/-!
# Records in a store

Records are stored in their written form. Reading one back can fail, since others may have put
anything into the table, and a failure names what is wrong with the text.

There is one way to write a record, `upsert`: the record that is stored under the key is read, the
new one is stamped against it, and the result replaces it as a whole.
-/

namespace RecordBoard.Store.Backend

/-- A stored value as a record. -/
def readRecord (value : Bytes) : Except Trouble Record :=
  (Record.decode value).mapError fun f => .failure (.unreadableRecord f)

/-- The record under a key. -/
def getRecord (b : Backend) (t : Table) (key : String) : Except Trouble (Option Record) := do
  match ← b.get t key with
  | none => return none
  | some value => return some (← readRecord value)

/-- Writes a record in place of the one under a key. -/
def upsert (b : Backend) (key : String) (r : Record) (now : UInt64) : Action Trouble Record := do
  let previous ← .reading fun t => b.getRecord t key
  let stamped := r.stamp key previous now
  b.put key stamped.encode
  return stamped

/-- The records of a list of stored values, or the failure of the first that is none. -/
def readRecords : List (String × Bytes) → Except Trouble (List Record)
  | [] => .ok []
  | (_, value) :: rest => do
    let r ← readRecord value
    return r :: (← readRecords rest)

/-- The records of one page of keys, with the cursor of the page. -/
def listRecords (b : Backend) (t : Table) (stem : String) (limit : Nat) (cursor : Option String) :
    Except Trouble (List Record × Option String) := do
  let page ← b.list t stem limit cursor
  let found ← b.getMany t page.keys
  return (← readRecords found, page.cursor)

/-- The first records of the table. -/
def scan (b : Backend) (t : Table) (limit : Nat) : Except Trouble (List Record) := do
  return (← b.listRecords t "" limit none).1

end RecordBoard.Store.Backend
