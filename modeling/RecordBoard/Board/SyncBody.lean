import RecordBoard.Board.Failure
import RecordBoard.Json.Reader

/-!
# The body of a sync

A sync brings a list of records, either bare or as the field `records` of an object. The body is
read as JSON before anyone looks what it is; only then is it refused if it holds no list of records,
and only after that if something stands behind it.

Fields are counted as they are written: an object with two fields `records` holds no list of
records.
-/

namespace RecordBoard.Board.SyncBody

open Json (Value Reading head)

/-- The values of a field, each time it is written. -/
def occurrences (name : String) (fields : List (String × Value)) : List Value :=
  (fields.filter fun e => e.1 == name).map (·.2)

/-- The list of records that fields hold. -/
def ofFields? (fields : List (String × Value)) : Option (List Value) :=
  match occurrences "records" fields with
  | [.array items] => some items
  | _ => none

/-- The front of a text as JSON, and the records in it. -/
def read (input : Bytes) : Reading (Option (List Value) × Bytes) := do
  let fuel := Json.enough input
  match ← head input with
  | .scalar _ rest => return (none, rest)
  | .list inside =>
    let (items, rest) ← Json.readItems fuel (Json.maxDepth - 1) inside
    return (some items, rest)
  | .map inside =>
    let (fields, rest) ← Json.readFields fuel (Json.maxDepth - 1) inside
    return (ofFields? fields, rest)

/-- The records that the body of a sync holds. -/
def decode (body : Bytes) : Except Failure (List Value) := do
  let (records, rest) ← (Json.located body (read body)).mapError .badBody
  match records with
  | none => .error .noRecords
  | some items =>
    (Json.located body (Json.expectEnd rest)).mapError .badBody
    return items

end RecordBoard.Board.SyncBody
