import RecordBoard.Delivery.Details
import RecordBoard.Status

/-!
# Rules for deliveries

Which events count, what of their payload identifies the subject, and which status follows is a
table of three rules. A rule has arms that are tried in order, each a condition with the status that
it leads to, and a status for the case that none applies.

## Main definitions

* `Delivery.Condition`, `Condition.holds` — conditions on the action and the subject.
* `Delivery.Rule`, `Rule.status` — a row of the table, and the status that it gives.
* `Delivery.rules`, `Delivery.rule?` — the table.
-/

namespace RecordBoard.Delivery

open Json (Value)

/-- A condition on a delivery. -/
inductive Condition where
  /-- The action has this name. -/
  | action (name : String)
  /-- The action has this name, and the flag of the subject, false if there is none, is this. -/
  | actionWithFlag (name flag : String) (value : Bool)
  /-- The field of the subject is this text. -/
  | subjectField (field text : String)

/-- Whether a condition holds of an action and a subject. -/
def Condition.holds (action : Option String) (subject : Value) : Condition → Bool
  | .action name => action == some name
  | .actionWithFlag name flag value => action == some name && memberFlag flag subject == value
  | .subjectField field text => memberText? field subject == some text

/-- What one kind of event leads to. -/
structure Rule where
  /-- The name of the event. -/
  event : String
  /-- The member of the payload that is the subject. -/
  subject : String
  /-- The field of the subject that identifies it. -/
  idField : String
  /-- The type of the record. -/
  entityType : String
  /-- What the id of the record begins with. -/
  idStem : String
  /-- Conditions and where they lead, tried in order. -/
  arms : List (Condition × Status)
  /-- The status if no condition holds. -/
  fallback : Status
  /-- What the record takes from the payload and the subject. -/
  details : Value → Value → Details

/-- The status of a subject after an action. -/
def Rule.status (rule : Rule) (action : Option String) (subject : Value) : Status :=
  ((rule.arms.find? fun arm => arm.1.holds action subject).map (·.2)).getD rule.fallback

/-- The rule for issues. -/
def issueRule : Rule where
  event := "issues"
  subject := "issue"
  idField := "number"
  entityType := "task"
  idStem := "issue-"
  arms := [(.action "closed", .done)]
  fallback := .todo
  details := Details.ofIssue

/-- The rule for pull requests. -/
def pullRequestRule : Rule where
  event := "pull_request"
  subject := "pull_request"
  idField := "number"
  entityType := "task"
  idStem := "pr-"
  arms :=
    [(.action "opened", .codeReview),
     (.action "review_requested", .codeReview),
     (.actionWithFlag "closed" "merged" true, .done),
     (.actionWithFlag "closed" "merged" false, .backlog)]
  fallback := .inProgress
  details := Details.ofPullRequest

/-- The rule for deployments. -/
def deploymentRule : Rule where
  event := "deployment"
  subject := "deployment"
  idField := "id"
  entityType := "deployment"
  idStem := "deploy-"
  arms := [(.subjectField "task" "deploy", .staging)]
  fallback := .done
  details := Details.ofDeployment

/-- The table of rules. -/
def rules : List Rule := [issueRule, pullRequestRule, deploymentRule]

/-- The rule for an event. -/
def rule? (event : String) : Option Rule := rules.find? fun rule => rule.event == event

end RecordBoard.Delivery
