/-!
# Statuses

A record's status is free text, but the columns of the board have names. These are the eight that a
delivery may set and that a status update accepts, in board order.
-/

namespace RecordBoard

/-- A column of the board. -/
inductive Status where
  | backlog
  | triage
  | todo
  | inProgress
  | codeReview
  | testing
  | staging
  | done
deriving DecidableEq

namespace Status

/-- The name of a status in records and requests. -/
def text : Status → String
  | .backlog => "backlog"
  | .triage => "triage"
  | .todo => "todo"
  | .inProgress => "in_progress"
  | .codeReview => "code_review"
  | .testing => "testing"
  | .staging => "staging"
  | .done => "done"

/-- Every status, in board order. -/
def all : List Status :=
  [.backlog, .triage, .todo, .inProgress, .codeReview, .testing, .staging, .done]

/-- The status with a given name. -/
def ofText? (s : String) : Option Status := all.find? fun status => status.text == s

/-- The place of a status on the board, from zero on. -/
def index (status : Status) : Nat := all.idxOf status

/-- A status is found again under its name, so no two share one. -/
theorem ofText?_text (status : Status) : ofText? status.text = some status := by
  cases status <;> decide

end Status

end RecordBoard
