import RecordBoard.Delivery.Rule
import RecordBoard.Record

/-!
# Deliveries as records

A delivery is an event with a payload. It becomes at most one record, whose key depends on the event
and on what identifies the subject and on nothing else, so that the same subject always goes to the
same place.

An event without a rule is none of the board's business. One with a rule whose payload lacks the
subject, or whose subject lacks its identifier, is incomplete, and the reason says which.
-/

namespace RecordBoard.Delivery

open Json (Value)

/-- Why a delivery with a rule becomes no record. -/
inductive Gap where
  /-- The payload has no subject. -/
  | noSubject (subject : String)
  /-- The subject has no identifier. -/
  | noIdentifier (subject field : String)
deriving DecidableEq

/-- The wording of a gap. -/
def Gap.message : Gap → String
  | .noSubject subject => s!"payload has no `{subject}` object"
  | .noIdentifier subject field => s!"`{subject}.{field}` is missing"

/-- A record that a delivery became. -/
structure Draft where
  /-- The type of the record. -/
  entityType : String
  /-- The id of the record. -/
  id : String
  /-- The status that follows from the delivery. -/
  status : Status
  /-- The record. -/
  record : Record

/-- The key under which a draft goes. -/
def Draft.key (d : Draft) : String := composedKey d.entityType d.id

/-- What a delivery comes to. -/
inductive Outcome where
  /-- There is no rule for the event. -/
  | unrecognized
  /-- The payload lacks something. -/
  | incomplete (gap : Gap)
  /-- There is a record. -/
  | record (draft : Draft)

/-- The subject in a payload. -/
def Rule.subject? (rule : Rule) (payload : Value) : Option Value :=
  (payload.member? rule.subject).filter fun v => v.asObject?.isSome

/-- What identifies a subject. -/
def Rule.identifier? (rule : Rule) (subject : Value) : Option String :=
  (subject.member? rule.idField).bind Record.usableText?

/-- The action that a payload speaks of. -/
def action? (payload : Value) : Option String := memberText? "action" payload

/-- The record of a subject with a given identifier. -/
def Rule.draft (rule : Rule) (payload subject : Value) (identifier : String) (now : UInt64) :
    Draft :=
  let status := rule.status (action? payload) subject
  let details := rule.details payload subject
  let id := rule.idStem ++ identifier
  let fields :=
    [("key", .string (composedKey rule.entityType id)), ("entity_type", .string rule.entityType),
     ("id", .string id),
     ("status", .string status.text), ("metadata", .object details.metadata),
     ("updated_at", .ofWord now)]
    ++ (details.name.map fun name => ("name", Value.string name)).toList
    ++ (details.reference.map fun reference => ("github_ref", Value.string reference)).toList
  ⟨rule.entityType, id, status, ⟨Keyed.ofList fields⟩⟩

/-- What a delivery comes to at the clock reading `now`. -/
def normalize (event : String) (payload : Value) (now : UInt64) : Outcome :=
  match rule? event with
  | none => .unrecognized
  | some rule =>
    match rule.subject? payload with
    | none => .incomplete (.noSubject rule.subject)
    | some subject =>
      match rule.identifier? subject with
      | none => .incomplete (.noIdentifier rule.subject rule.idField)
      | some identifier => .record (rule.draft payload subject identifier now)

end RecordBoard.Delivery
