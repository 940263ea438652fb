import RecordBoard.Record

/-!
# Counting records

A summary of records counts them, once in all, once by their kind and once by their status. A record
that does not say its kind or its status is counted as `unknown`.
-/

namespace RecordBoard

open Json (Value)

/-- Numbers of records under names, in the order of the names. -/
abbrev Counters := Keyed Nat

/-- The counters with one more under a name. -/
def Counters.add (name : String) (counters : Counters) : Counters :=
  Keyed.insert name ((Keyed.get? name counters).getD 0 + 1) counters

/-- What a list of records comes to. -/
structure Tally where
  /-- How many there are. -/
  total : Nat
  /-- How many there are of each kind. -/
  byType : Counters
  /-- How many there are in each status. -/
  byStatus : Counters

namespace Tally

/-- Where a record without a name is counted. -/
def unknown : String := "unknown"

/-- The tally with one more record. -/
def add (t : Tally) (r : Record) : Tally where
  total := t.total + 1
  byType := t.byType.add (r.kind?.getD unknown)
  byStatus := t.byStatus.add (r.status?.getD unknown)

/-- The tally of no record. -/
def empty : Tally := ⟨0, [], []⟩

/-- The tally of a list of records. -/
def ofList (records : List Record) : Tally := records.foldl add empty

/-- Counters as a JSON value. -/
def countersValue (counters : Counters) : Value :=
  .object (counters.map fun (name, n) => (name, .ofCount n))

/-- A tally as a JSON value. Its fields stand in this order. -/
def toValue (t : Tally) : Value :=
  .object [("total", .ofCount t.total), ("by_type", countersValue t.byType),
    ("by_status", countersValue t.byStatus)]

end Tally

end RecordBoard
