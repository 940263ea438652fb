import RecordBoard.Record

/-!
# Stamping a record for a write

A write sets three fields. The key is where the record goes. The moment of the first write is handed
on from the record that is replaced; a record that replaces none keeps the moment it brings along,
if any. The moment of the last write is the clock's, but never before the one in the record that is
replaced, so that it does not go back when the clock does.

Moments are read as doubles and written as whole seconds. A fraction is rounded up, and a moment
beyond sixty-four bits counts as the last one.
-/

namespace RecordBoard

open Json (Value)

/-- A clock reading in whole seconds. A clock before the epoch reads as the epoch. -/
def clockSeconds (now : Int) : UInt64 := UInt64.ofNatClamp now.toNat

namespace Record

/-- The least moment that a record replacing `previous` may carry. -/
def floor (previous : Option Record) : UInt64 :=
  match previous.bind updatedAt? with
  | some moment => UInt64.ofNatClamp moment.ceil
  | none => 0

/-- The moment of a write at the clock reading `now`. -/
def stampFor (previous : Option Record) (now : UInt64) : UInt64 := max now (floor previous)

/-- The moment of the first write that a stamped record carries. -/
def firstWritten (previous : Option Record) (now : UInt64) (r : Record) : Value :=
  ((previous.bind (present? "created_at")) <|> r.present? "created_at").getD (.ofWord now)

/-- The record as it is written at `key`, in place of `previous`, at the clock reading `now`. -/
def stamp (key : String) (previous : Option Record) (now : UInt64) (r : Record) : Record :=
  ((r.set "key" (.string key)).set "created_at" (firstWritten previous now r)).set "updated_at"
    (.ofWord (stampFor previous now))

end Record

end RecordBoard
