import RecordBoard.Json.Printer
import RecordBoard.Json.Reader

/-!
# Records

A record is a JSON object. The board reads a handful of its fields and keeps all others as they
came, so the views below are total: a field that is missing, empty or of another kind is no field
for them, and never an error.

A record says under which key it wants to be kept, either outright or by its type and its id. Both
may be numbers, which count by their written form.

## Main definitions

* `Record` — the fields of a record.
* `Record.key?`, `Record.entityType?`, `Record.id?`, … — the fields that the board reads.
* `Record.kind?` — the group of a record in a summary.
* `Record.derivedKey?` — the key that a record asks for.
* `Record.encode`, `Record.decode` — the written form.
-/

namespace RecordBoard

open Json (Value)

/-- A JSON object that is kept under a key. -/
structure Record where
  /-- The fields, in key order. -/
  fields : Keyed Value

/-- The key of a record that is named by its type and its id. -/
def composedKey (entityType id : String) : String := entityType ++ ":" ++ id

theorem composedKey_ne_empty (entityType id : String) : composedKey entityType id ≠ "" := by
  intro h
  have hchars := congrArg String.toList h
  simp [composedKey] at hchars

namespace Record

/-- The record without fields. -/
def empty : Record := ⟨[]⟩

/-- The value of a field. -/
def get? (field : String) (r : Record) : Option Value := Keyed.get? field r.fields

/-- The record with another value in a field. -/
def set (field : String) (value : Value) (r : Record) : Record :=
  ⟨Keyed.insert field value r.fields⟩

/-- The value of a field, unless it is missing or null. -/
def present? (field : String) (r : Record) : Option Value :=
  (r.get? field).filter fun v => !v.isNull

/-! ## Views -/

/-- A field as text: a string that is not empty, or a number in its written form. -/
def usableText? : Value → Option String
  | .string s => if s = "" then none else some s
  | .number n => some n.text
  | _ => none

/-- The text of a field. -/
def text? (field : String) (r : Record) : Option String := (r.get? field).bind usableText?

/-- The key that the record names outright; unlike other texts it must be a string. -/
def key? (r : Record) : Option String :=
  ((r.get? "key").bind Value.asString?).filter fun s => s != ""

/-- The type of the record, under either of its names. -/
def entityType? (r : Record) : Option String := r.text? "entity_type" <|> r.text? "type"

/-- The id of the record. -/
def id? (r : Record) : Option String := r.text? "id"

/-- The name of the record. -/
def name? (r : Record) : Option String := r.text? "name"

/-- The status of the record. -/
def status? (r : Record) : Option String := r.text? "status"

/-- A value as a moment: seconds that are not negative. -/
def moment? (v : Value) : Option Binary64 := v.asDouble?.filter Binary64.isNonNegative

/-- When the record was first written. -/
def createdAt? (r : Record) : Option Binary64 := (r.get? "created_at").bind moment?

/-- When the record was last written. -/
def updatedAt? (r : Record) : Option Binary64 := (r.get? "updated_at").bind moment?

/-- The part of a key in front of its first colon, unless it is empty. -/
def keyPrefix? (key : String) : Option String :=
  let front := key.toList.takeWhile (· != ':')
  if ':' ∈ key.toList ∧ front ≠ [] then some (String.ofList front) else none

/-- The group of the record: its type, or else what its key begins with. -/
def kind? (r : Record) : Option String := r.entityType? <|> r.key?.bind keyPrefix?

/-- The key that the record asks for: the one it names, or the one made of its type and its id. -/
def derivedKey? (defaultType : String) (r : Record) : Option String :=
  r.key? <|> r.id?.map fun id => composedKey (r.entityType?.getD defaultType) id

/-! ## The written form -/

/-- The record as a JSON value. -/
def toValue (r : Record) : Value := .object r.fields

/-- The written form. -/
def text (r : Record) : String := r.toValue.text

/-- The octets of the written form. -/
def encode (r : Record) : Bytes := r.toValue.encode

/-- The record that octets spell. -/
def decode (bytes : Bytes) : Except Json.Fault Record :=
  (Json.decodeObject "a map" bytes).map Record.mk

/-- A value as a record; only an object is one. -/
def ofValue? : Value → Option Record
  | .object fields => some ⟨fields⟩
  | _ => none

end Record

end RecordBoard
