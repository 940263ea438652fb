import RecordBoard.Json.Value

/-!
# What a delivery tells about its subject

A code host delivers an event as a JSON payload with a subject in it: an issue, a pull request, a
deployment. From these a record takes a name, a reference and a handful of further details, which it
keeps together. Payloads come from elsewhere, so nothing in them is relied upon: what is missing or
of the wrong kind is left out or null.
-/

namespace RecordBoard.Delivery

open Json (Value)

/-- What a record takes from a payload and its subject. -/
structure Details where
  /-- The name of the record. -/
  name : Option String
  /-- How the code host refers to the subject. -/
  reference : Option String
  /-- Further details, under their names. -/
  metadata : Keyed Value

/-- The text of a member of a value. -/
def memberText? (field : String) (v : Value) : Option String :=
  (v.member? field).bind Value.asString?

/-- Whether a member of a value is true. -/
def memberFlag (field : String) (v : Value) : Bool :=
  ((v.member? field).bind Value.asBool?).getD false

/-- The login name of a person who is a member of a value. -/
def login (field : String) (v : Value) : Value :=
  ((v.member? field).bind (Value.member? "login")).getD .null

/-- The details that every payload may have. -/
def commonDetails (payload : Value) : List (String × Value) :=
  let action := (payload.member? "action").map ("action", ·)
  let repository :=
    ((payload.member? "repository").bind (Value.member? "full_name")).map ("repository", ·)
  action.toList ++ repository.toList

/-- How issues and pull requests are referred to: by a number that fits sixty-four bits. -/
def numberReference? (subject : Value) : Option String :=
  ((subject.member? "number").bind Value.asWord?).map fun n => "#" ++ toString n

/-- What a record takes from an issue. -/
def Details.ofIssue (payload issue : Value) : Details where
  name := memberText? "title" issue
  reference := numberReference? issue
  metadata := Keyed.ofList (commonDetails payload ++
    [("labels", .array
      ((((issue.member? "labels").bind Value.asArray?).getD []).filterMap (Value.member? "name"))),
     ("assignee", login "assignee" issue),
     ("url", .ofString? (memberText? "html_url" issue))])

/-- What a record takes from a pull request. -/
def Details.ofPullRequest (payload pullRequest : Value) : Details where
  name := memberText? "title" pullRequest
  reference := numberReference? pullRequest
  metadata := Keyed.ofList (commonDetails payload ++
    [("draft", .boolean (memberFlag "draft" pullRequest)),
     ("merged", .boolean (memberFlag "merged" pullRequest)),
     ("author", login "user" pullRequest),
     ("url", .ofString? (memberText? "html_url" pullRequest))])

/-- What a record takes from a deployment. One without a description is named for where it goes. -/
def Details.ofDeployment (payload deployment : Value) : Details where
  name := ((memberText? "description" deployment).filter fun s => s != "") <|>
    (memberText? "environment" deployment).map ("deploy to " ++ ·)
  reference := memberText? "sha" deployment
  metadata := Keyed.ofList (commonDetails payload ++
    [("environment", .ofString? (memberText? "environment" deployment)),
     ("ref", .ofString? (memberText? "ref" deployment)),
     ("task", .ofString? (memberText? "task" deployment))])

end RecordBoard.Delivery
