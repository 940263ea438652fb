import RecordBoard.Proofs.Delivery.Draft

/-!
# What deliveries come to

A delivery is judged by walking through a table: the first rule for the event, then the first arm
whose condition holds.  What the table is meant to say can be said without walking.  There are three
kinds of deliveries.  Each has one subject, which is told apart by a number or a text, and each
gives its record a place and a status that can be read off the payload.

Payloads come from elsewhere, so all of this is about values of any shape.  A text counts only if it
is a string, a flag only if it is a truth value; what is missing and what is of another kind count
alike.

## Main definitions

* `Kind` — the kinds of deliveries that become records, with their events and where their records
  go.
* `Kind.Identifies` — a payload has a subject of the kind, and a text tells it apart.
* `Kind.Leads` — the status that a delivery of the kind leads to.
* `Kind.IsRecorded` — a draft is the record of a subject.

## Main results

* `rule?_eq_none_iff`, `rule?_event` — the events that count are those of the three kinds.
* `exists_leads`, `status_eq_iff` — the arms of a rule lead where they should and nowhere else.
* `normalize_of_identifies`, `exists_gap_of_not_identifies` — what a payload must have.
* `deliveries_follow_mapping` — what any delivery comes to.
-/

namespace RecordBoard.Delivery

open Json (Value)

/-! ## Kinds -/

/-- The kinds of deliveries that become records. -/
inductive Kind where
  /-- About an issue. -/
  | issue
  /-- About a pull request. -/
  | pullRequest
  /-- About a deployment. -/
  | deployment
deriving DecidableEq

namespace Kind

/-- The name of the event. -/
def event : Kind → String
  | issue => "issues"
  | pullRequest => "pull_request"
  | deployment => "deployment"

/-- The member of the payload that is the subject. -/
def subject : Kind → String
  | issue => "issue"
  | pullRequest => "pull_request"
  | deployment => "deployment"

/-- The member of the subject that tells it apart. -/
def idField : Kind → String
  | issue => "number"
  | pullRequest => "number"
  | deployment => "id"

/-- What the key of the record begins with, in front of the text that tells the subject apart. -/
def keyStem : Kind → String
  | issue => "task:issue-"
  | pullRequest => "task:pr-"
  | deployment => "deployment:deploy-"

/-- The rule for the kind. -/
def rule : Kind → Rule
  | issue => issueRule
  | pullRequest => pullRequestRule
  | deployment => deploymentRule

end Kind

/-! ## Rules -/

theorem rule?_event (kind : Kind) : rule? kind.event = some kind.rule := by
  cases kind <;> rfl

/-- The events that count are those of the three kinds. -/
theorem rule?_eq_none_iff {event : String} :
    rule? event = none ↔ ∀ kind : Kind, event ≠ kind.event := by
  constructor
  · rintro h kind rfl
    rw [rule?_event] at h
    cases h
  · intro h
    have hissue : issueRule.event ≠ event := Ne.symm (h .issue)
    have hpull : pullRequestRule.event ≠ event := Ne.symm (h .pullRequest)
    have hdeployment : deploymentRule.event ≠ event := Ne.symm (h .deployment)
    simp [rule?, rules, hissue, hpull, hdeployment]

theorem exists_kind {event : String} (h : rule? event ≠ none) :
    ∃ kind : Kind, event = kind.event := by
  apply Classical.byContradiction
  intro hnot
  exact h (rule?_eq_none_iff.2 fun kind hkind => hnot ⟨kind, hkind⟩)

/-! ## Subjects -/

/-- The value tells a subject apart, by this text: it is a number, or a string that is not empty. -/
inductive IsIdentifier : Value → String → Prop
  /-- A number counts by its written form. -/
  | number (n : Json.Number) : IsIdentifier (.number n) n.text
  /-- A string counts as it is. -/
  | string (s : String) (h : s ≠ "") : IsIdentifier (.string s) s

theorem usableText?_eq_some_iff {v : Value} {s : String} :
    Record.usableText? v = some s ↔ IsIdentifier v s := by
  constructor
  · intro h
    cases v with
    | number n =>
      cases h
      exact .number n
    | string text =>
      by_cases hempty : text = ""
      · simp [Record.usableText?, hempty] at h
      · rw [Record.usableText?, if_neg hempty] at h
        cases h
        exact .string _ hempty
    | _ => cases h
  · rintro (n | ⟨s, hs⟩)
    · rfl
    · rw [Record.usableText?, if_neg hs]

/-- The payload has a subject of the kind, which is an object, and the text tells it apart. -/
structure Kind.Identifies (kind : Kind) (payload subject : Value) (identifier : String) : Prop where
  /-- The subject is a member of the payload. -/
  isMember : payload.member? kind.subject = some subject
  /-- It is an object. -/
  isObject : ∃ fields, subject = .object fields
  /-- It has a member that tells it apart. -/
  isIdentified : ∃ v, subject.member? kind.idField = some v ∧ IsIdentifier v identifier

section Subjects

variable {kind : Kind} {payload subject : Value} {identifier : String}

theorem Rule.subject?_eq_some_iff {rule : Rule} : rule.subject? payload = some subject ↔
    payload.member? rule.subject = some subject ∧ ∃ fields, subject = .object fields := by
  rw [Rule.subject?, Option.filter_eq_some_iff]
  refine and_congr_right fun _ => ?_
  cases subject <;> simp [Value.asObject?]

theorem Rule.identifier?_eq_some_iff {rule : Rule} : rule.identifier? subject = some identifier ↔
    ∃ v, subject.member? rule.idField = some v ∧ IsIdentifier v identifier := by
  rw [Rule.identifier?, Option.bind_eq_some_iff]
  exact exists_congr fun v => and_congr_right fun _ => usableText?_eq_some_iff

theorem subject_rule (kind : Kind) : kind.rule.subject = kind.subject := by cases kind <;> rfl

theorem idField_rule (kind : Kind) : kind.rule.idField = kind.idField := by cases kind <;> rfl

/-- A payload that has what the kind asks for becomes a record, -/
theorem normalize_of_identifies (h : kind.Identifies payload subject identifier) (now : UInt64) :
    normalize kind.event payload now = .record
      (kind.rule.draft payload subject identifier now) := by
  have hsubject : kind.rule.subject? payload = some subject :=
    Rule.subject?_eq_some_iff.2 ⟨by rw [subject_rule, h.isMember], h.isObject⟩
  have hidentifier : kind.rule.identifier? subject = some identifier :=
    Rule.identifier?_eq_some_iff.2 (by rw [idField_rule]; exact h.isIdentified)
  exact normalize_eq_record_iff.2
    ⟨kind.rule, subject, identifier, rule?_event kind, hsubject, hidentifier, rfl⟩

/-- and one that has not does not. -/
theorem exists_gap_of_not_identifies
    (h : ¬ ∃ subject identifier, kind.Identifies payload subject identifier) (now : UInt64) :
    ∃ gap, normalize kind.event payload now = .incomplete gap := by
  rw [normalize, rule?_event]
  dsimp only
  cases hsubject : kind.rule.subject? payload with
  | none => exact ⟨_, rfl⟩
  | some subject =>
    dsimp only
    cases hidentifier : kind.rule.identifier? subject with
    | none => exact ⟨_, rfl⟩
    | some identifier =>
      obtain ⟨hmember, hobject⟩ := Rule.subject?_eq_some_iff.1 hsubject
      have hidentified := Rule.identifier?_eq_some_iff.1 hidentifier
      rw [subject_rule] at hmember
      rw [idField_rule] at hidentified
      exact absurd ⟨subject, identifier, hmember, hobject, hidentified⟩ h

end Subjects

/-! ## Statuses -/

/-- A member of the value is this text. -/
def Says (v : Value) (name text : String) : Prop := v.member? name = some (.string text)

theorem Says.unique {v : Value} {name text text' : String} (h : Says v name text)
    (h' : Says v name text') :
    text = text' := by
  rw [Says, h] at h'
  cases h'
  rfl

theorem memberText?_eq_some_iff {v : Value} {name text : String} :
    memberText? name v = some text ↔ Says v name text := by
  rw [memberText?, Says, Option.bind_eq_some_iff]
  constructor
  · rintro ⟨w, hw, htext⟩
    cases w <;> cases htext
    exact hw
  · intro h
    exact ⟨_, h, rfl⟩

theorem memberFlag_iff {v : Value} {name : String} :
    memberFlag name v = true ↔ v.member? name = some (.boolean true) := by
  unfold memberFlag
  cases v.member? name with
  | none => simp
  | some w => cases w <;> simp [Value.asBool?]

/-- The status that a delivery with this payload and this subject leads to. -/
inductive Kind.Leads (payload subject : Value) : Kind → Status → Prop
  /-- An issue is done if it is closed, -/
  | closed (h : Says payload "action" "closed") : Leads payload subject .issue .done
  /-- and else it is to be done. -/
  | notClosed (h : ¬ Says payload "action" "closed") : Leads payload subject .issue .todo
  /-- A pull request is in review if it is opened or a review is asked for. -/
  | reviewed (h : Says payload "action" "opened" ∨ Says payload "action" "review_requested") :
      Leads payload subject .pullRequest .codeReview
  /-- If it is closed, it is done if it is merged, -/
  | merged (h : Says payload "action" "closed")
    (hmerged : subject.member? "merged" = some (.boolean true)) :
      Leads payload subject .pullRequest .done
  /-- and else it goes back. -/
  | notMerged (h : Says payload "action" "closed")
      (hmerged : subject.member? "merged" ≠ some (.boolean true)) :
      Leads payload subject .pullRequest .backlog
  /-- In all other cases it is in progress. -/
  | changed (hopened : ¬ Says payload "action" "opened")
      (hreviewed : ¬ Says payload "action" "review_requested")
      (hclosed : ¬ Says payload "action" "closed") :
      Leads payload subject .pullRequest .inProgress
  /-- A deployment is staged if its task is to deploy, -/
  | deploys (h : Says subject "task" "deploy") : Leads payload subject .deployment .staging
  /-- and else it is done. -/
  | notDeploys (h : ¬ Says subject "task" "deploy") : Leads payload subject .deployment .done

section Statuses

variable {payload subject : Value}

theorem holds_action_iff {name : String} :
    (Condition.action name).holds (action? payload) subject = true ↔
      Says payload "action" name := by
  rw [Condition.holds, beq_iff_eq, action?, memberText?_eq_some_iff]

theorem holds_actionWithFlag_iff {name flag : String} {value : Bool} :
    (Condition.actionWithFlag name flag value).holds (action? payload) subject = true ↔
      Says payload "action" name ∧ memberFlag flag subject = value := by
  rw [Condition.holds, Bool.and_eq_true, beq_iff_eq, beq_iff_eq, action?, memberText?_eq_some_iff]

theorem holds_subjectField_iff {field text : String} (action : Option String) :
    (Condition.subjectField field text).holds action subject = true ↔ Says subject field text := by
  rw [Condition.holds, beq_iff_eq, memberText?_eq_some_iff]

/-- An arm leads to its status if its condition holds and none in front of it does, -/
theorem status_of_holds {rule : Rule} {action : Option String} {condition : Condition}
    {status : Status} (front : List (Condition × Status)) {back : List (Condition × Status)}
    (harms : rule.arms = front ++ (condition, status) :: back)
    (hfront : ∀ arm ∈ front, ¬ arm.1.holds action subject = true)
    (h : condition.holds action subject = true) :
    rule.status action subject = status := by
  rw [Rule.status, harms, List.find?_append, List.find?_eq_none.2 hfront, Option.none_or]
  rw [List.find?_cons, h]
  rfl

/-- and the rule to its own if none does. -/
theorem status_of_forall_not {rule : Rule} {action : Option String}
    (h : ∀ arm ∈ rule.arms, ¬ arm.1.holds action subject = true) :
    rule.status action subject = rule.fallback := by
  rw [Rule.status, List.find?_eq_none.2 h]
  rfl

/-- A delivery leads to some status, -/
theorem exists_leads (payload subject : Value) (kind : Kind) :
    ∃ status, kind.Leads payload subject status := by
  cases kind with
  | issue =>
    by_cases hclosed : Says payload "action" "closed"
    · exact ⟨_, .closed hclosed⟩
    · exact ⟨_, .notClosed hclosed⟩
  | pullRequest =>
    by_cases hopened : Says payload "action" "opened"
    · exact ⟨_, .reviewed (.inl hopened)⟩
    by_cases hreviewed : Says payload "action" "review_requested"
    · exact ⟨_, .reviewed (.inr hreviewed)⟩
    by_cases hclosed : Says payload "action" "closed"
    · by_cases hmerged : subject.member? "merged" = some (.boolean true)
      · exact ⟨_, .merged hclosed hmerged⟩
      · exact ⟨_, .notMerged hclosed hmerged⟩
    · exact ⟨_, .changed hopened hreviewed hclosed⟩
  | deployment =>
    by_cases hdeploys : Says subject "task" "deploy"
    · exact ⟨_, .deploys hdeploys⟩
    · exact ⟨_, .notDeploys hdeploys⟩

/-- and the arms of its rule lead there. -/
theorem status_of_leads {kind : Kind} {status : Status} (h : kind.Leads payload subject status) :
    kind.rule.status (action? payload) subject = status := by
  have hnot {name : String} (h : ¬ Says payload "action" name) :
      ¬ (Condition.action name).holds (action? payload) subject = true := mt holds_action_iff.1 h
  have hother {name name' : String} (h : Says payload "action" name) (hne : name ≠ name') :
      ¬ (Condition.action name').holds (action? payload) subject = true :=
        hnot fun h' => hne (h.unique h')
  cases h with
  | closed h => exact status_of_holds [] rfl (List.forall_mem_nil _) (holds_action_iff.2 h)
  | notClosed h => exact status_of_forall_not (List.forall_mem_singleton.2 (hnot h))
  | reviewed h =>
    rcases h with h | h
    · exact status_of_holds [] rfl (List.forall_mem_nil _) (holds_action_iff.2 h)
    · exact status_of_holds [_] rfl (List.forall_mem_singleton.2 (hother h (by decide)))
        (holds_action_iff.2 h)
  | merged h hmerged =>
    refine status_of_holds [_, _] rfl ?_ (holds_actionWithFlag_iff.2 ⟨h, memberFlag_iff.2 hmerged⟩)
    exact List.forall_mem_cons.2
      ⟨hother h (by decide), List.forall_mem_singleton.2 (hother h (by decide))⟩
  | notMerged h hmerged =>
    have hflag : memberFlag "merged" subject = false :=
      eq_false_of_ne_true (mt memberFlag_iff.1 hmerged)
    refine status_of_holds [_, _, _] rfl ?_ (holds_actionWithFlag_iff.2 ⟨h, hflag⟩)
    refine List.forall_mem_cons.2
      ⟨hother h (by decide), List.forall_mem_cons.2 ⟨hother h (by decide),
      List.forall_mem_singleton.2 fun hholds => ?_⟩⟩
    exact hmerged (memberFlag_iff.1 (holds_actionWithFlag_iff.1 hholds).2)
  | changed hopened hreviewed hclosed =>
    -- The last two arms differ in the flag that they want, but both want the payload to be closed.
    have hneither {flag : String} {value : Bool} :
        ¬ (Condition.actionWithFlag "closed" flag value).holds (action? payload) subject = true :=
      fun hholds => hclosed (holds_actionWithFlag_iff.1 hholds).1
    exact status_of_forall_not
      (List.forall_mem_cons.2 ⟨hnot hopened, List.forall_mem_cons.2 ⟨hnot hreviewed,
      List.forall_mem_cons.2 ⟨hneither, List.forall_mem_singleton.2 hneither⟩⟩⟩)
  | deploys h =>
    exact status_of_holds [] rfl (List.forall_mem_nil _) ((holds_subjectField_iff _).2 h)
  | notDeploys h =>
    exact status_of_forall_not (List.forall_mem_singleton.2 (mt (holds_subjectField_iff _).1 h))

/-- So a rule gives a status if and only if a delivery leads to it. -/
theorem status_eq_iff {kind : Kind} {status : Status} :
    kind.rule.status (action? payload) subject = status ↔ kind.Leads payload subject status := by
  refine ⟨?_, status_of_leads⟩
  rintro rfl
  obtain ⟨status, hleads⟩ := exists_leads payload subject kind
  rw [status_of_leads hleads]
  exact hleads

end Statuses

/-! ## Records -/

/-- The draft is the record of a subject of the kind. -/
structure Kind.IsRecorded (kind : Kind) (identifier : String) (now : UInt64) (draft : Draft) :
    Prop where
  /-- It goes where the kind and the text that tells the subject apart say. -/
  key : draft.key = kind.keyStem ++ identifier
  /-- The record names its key, -/
  named : draft.record.get? "key" = some (.string draft.key)
  /-- which is made of its type and its id. -/
  parts : ∃ entityType id, draft.record.get? "entity_type" = some (.string entityType) ∧
    draft.record.get? "id" = some (.string id) ∧ draft.key = entityType ++ ":" ++ id
  /-- It has the status of the draft. -/
  status : draft.record.get? "status" = some (.string draft.status.text)
  /-- It was last written at the clock reading, -/
  updated : draft.record.get? "updated_at" = some (.ofWord now)
  /-- and it says nothing about its first write. -/
  created : draft.record.get? "created_at" = none

theorem key_draft (kind : Kind) (payload subject : Value) (identifier : String) (now : UInt64) :
    (kind.rule.draft payload subject identifier now).key = kind.keyStem ++ identifier := by
  cases kind
  all_goals
    simp only [Draft.key, Rule.draft, composedKey, Kind.rule, Kind.keyStem, issueRule,
      pullRequestRule, deploymentRule, ← String.append_assoc]
    rfl

/-- What a payload becomes that has a subject is the record of the subject. -/
theorem isRecorded_draft (kind : Kind) (payload subject : Value) (identifier : String)
    (now : UInt64) :
    kind.IsRecorded identifier now (kind.rule.draft payload subject identifier now) where
  key := key_draft kind payload subject identifier now
  named := get?_key_draft kind.rule payload subject identifier now
  parts := ⟨kind.rule.entityType, kind.rule.idStem ++ identifier,
    get?_draft_of_mem (mem_fields_iff.2 (.inr (.inl rfl))),
    get?_draft_of_mem (mem_fields_iff.2 (.inr (.inr (.inl rfl)))), rfl⟩
  status := get?_status_draft kind.rule payload subject identifier now
  updated := get?_draft_of_mem (mem_fields_iff.2 (by simp))
  created := get?_created kind.rule payload subject identifier now

/--
**Deliveries follow the mapping.**  Whatever the event, the payload and the clock:

* a delivery is unrecognized if and only if its event is none of the three;
* it is incomplete if and only if its event is one of them and the payload does not have the subject
  of that kind as an object with a number, or a text that is not empty, to tell it apart;
* and else it becomes a record, whose key is made of the kind and of what tells the subject apart,
  whose status is the one that a delivery of the kind with this payload leads to, and whose fields
  say the same.
-/
theorem deliveries_follow_mapping (event : String) (payload : Value) (now : UInt64) :
    (normalize event payload now = .unrecognized ↔ ∀ kind : Kind, event ≠ kind.event) ∧
    ((∃ gap, normalize event payload now = .incomplete gap) ↔
      ∃ kind : Kind, event = kind.event ∧ ¬ ∃ subject identifier,
        kind.Identifies payload subject identifier) ∧
    (∀ (kind : Kind) subject identifier, event = kind.event →
      kind.Identifies payload subject identifier →
      ∃ draft, normalize event payload now = .record draft ∧ kind.IsRecorded identifier now draft ∧
        ∀ status, draft.status = status ↔ kind.Leads payload subject status) := by
  have hrecord {kind : Kind} {subject : Value} {identifier : String}
    (h : kind.Identifies payload subject identifier) :
      normalize kind.event payload now = .record (kind.rule.draft payload subject identifier now) :=
    normalize_of_identifies h now
  refine ⟨⟨?_, fun h => ?_⟩, ⟨?_, ?_⟩, ?_⟩
  · rintro h kind rfl
    by_cases hidentified : ∃ subject identifier, kind.Identifies payload subject identifier
    · obtain ⟨subject, identifier, hidentifies⟩ := hidentified
      rw [hrecord hidentifies] at h
      cases h
    · obtain ⟨gap, hgap⟩ := exists_gap_of_not_identifies hidentified now
      rw [hgap] at h
      cases h
  · rw [normalize, rule?_eq_none_iff.2 h]
  · rintro ⟨gap, hgap⟩
    have hrule : rule? event ≠ none := by
      intro hnone
      rw [normalize, hnone] at hgap
      cases hgap
    obtain ⟨kind, rfl⟩ := exists_kind hrule
    refine ⟨kind, rfl, ?_⟩
    rintro ⟨subject, identifier, hidentifies⟩
    rw [hrecord hidentifies] at hgap
    cases hgap
  · rintro ⟨kind, rfl, hnot⟩
    exact exists_gap_of_not_identifies hnot now
  · rintro kind subject identifier rfl hidentifies
    exact ⟨_, hrecord hidentifies, isRecorded_draft kind payload subject identifier now,
      fun status =>
      status_eq_iff⟩

/-- A pull request that is closed and told apart by a text, with a flag that is no truth value. -/
theorem closed_pull_request_goes_back :
    ∃ draft, normalize "pull_request" (.object [("action", .string "closed"),
        ("pull_request", .object [("merged", .string "true"), ("number", .string "7a")])]) 5 =
          .record draft ∧
      draft.key = "task:pr-7a" ∧ draft.status = .backlog ∧
      draft.record.get? "status" = some (.string "backlog") := by
  obtain ⟨-, -, hrecord⟩ :=
    deliveries_follow_mapping "pull_request" (.object [("action", .string "closed"),
    ("pull_request", .object [("merged", .string "true"), ("number", .string "7a")])]) 5
  obtain ⟨draft, hdraft, hrecorded, hstatus⟩ := hrecord .pullRequest
    (.object [("merged", .string "true"), ("number", .string "7a")]) "7a" rfl
    ⟨rfl, ⟨_, rfl⟩, _, rfl, .string "7a" (by decide)⟩
  have hbacklog : draft.status = .backlog := by
    refine (hstatus .backlog).2 (.notMerged rfl ?_)
    simp [Value.member?, Keyed.get?]
  refine ⟨draft, hdraft, hrecorded.key, hbacklog, ?_⟩
  rw [hrecorded.status, hbacklog]
  rfl

end RecordBoard.Delivery
