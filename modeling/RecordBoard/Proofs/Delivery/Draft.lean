import RecordBoard.Delivery
import RecordBoard.Proofs.Record.Stamp

/-!
# What drafts hold

A draft takes values out of a payload and puts them two brackets deep, into the details of a record.
All but one of them lie at least two brackets deep in the payload already: the name of a repository
and the login name of a person are members of members, and the names of labels are further in still.
The exception is the action, a member of the payload itself.  So a draft can nest one bracket deeper
than its payload, and it does only if the action does.

The clock has little part in a draft: it is the moment of the last write that the draft brings
along, which does not count, and all else comes from the payload.

## Main results

* `within_draft` — a draft nests no deeper than its payload, if the action nests one bracket less.
* `get?_draft_of_mem` — the fields of a draft are those that it is given.
* `normalize_eq_record_iff`, `exists_of_normalize` — what a delivery must be to become a record.
* `get?_metadata`, `get?_action` — where a draft keeps the action.
* `exists_normalize_of_clock` — what a delivery becomes at another clock reading.
-/

namespace RecordBoard.Json.Value

/-- A member nests no deeper than the whole. -/
theorem Within.of_member {room : Nat} {v w : Value} {name : String} (h : v.Within room)
    (hw : v.member? name = some w) : w.Within room := by
  cases v with
  | object fields =>
    cases room with
    | zero => exact absurd h.depth_le (Nat.not_succ_le_zero _)
    | succ room => exact (h.member? hw).mono (Nat.le_succ room)
  | _ => cases hw

/-- What is found in the items of an array makes an array that nests no deeper. -/
theorem Within.filterMap {room : Nat} {items : List Value} {f : Value → Option Value}
    (h : (array items).Within room)
    (hf : ∀ room v w, v.Within room → f v = some w → w.Within room) :
    (array (items.filterMap f)).Within room := by
  cases room with
  | zero => exact absurd h.depth_le (Nat.not_succ_le_zero _)
  | succ room =>
    refine within_array_iff.2 fun w hw => ?_
    obtain ⟨v, hv, hvw⟩ := List.mem_filterMap.1 hw
    exact hf room v w (within_array_iff.1 h v hv) hvw

theorem within_null (room : Nat) : null.Within room := ⟨trivial, Nat.zero_le _⟩

theorem within_boolean (b : Bool) (room : Nat) : (boolean b).Within room := ⟨trivial, Nat.zero_le _⟩

theorem within_emptyArray {room : Nat} (h : 0 < room) : (array []).Within room := ⟨trivial, h⟩

theorem within_ofString? (s : Option String) (room : Nat) : (ofString? s).Within room := by
  cases s <;> exact ⟨trivial, Nat.zero_le _⟩

end RecordBoard.Json.Value

namespace RecordBoard.Delivery

open Json (Value)

/-! ## Details -/

section Details

variable {room : Nat} {payload subject : Value}

theorem within_login (h : subject.Within (room + 1)) (field : String) :
    (login field subject).Within room := by
  unfold login
  cases hperson : subject.member? field with
  | none => exact Value.within_null room
  | some person =>
    rw [Option.bind_some]
    cases hlogin : person.member? "login" with
    | none => exact Value.within_null room
    | some name => exact (h.member? hperson).of_member hlogin

theorem within_labels (hroom : 0 < room) (h : subject.Within (room + 1)) :
    (Value.array ((((subject.member? "labels").bind Value.asArray?).getD []).filterMap
      (Value.member? "name"))).Within room := by
  cases hlabels : subject.member? "labels" with
  | none => exact Value.within_emptyArray hroom
  | some labels =>
    cases labels with
    | array items => exact (h.member? hlabels).filterMap fun _ _ _ hv hw => hv.of_member hw
    | _ => exact Value.within_emptyArray hroom

variable (hpayload : payload.Within (room + 2))
  (haction : ∀ a, payload.member? "action" = some a → a.depth ≤ room)

include hpayload haction

theorem within_commonDetails : ∀ e ∈ commonDetails payload, e.2.Within room := by
  intro e he
  rcases List.mem_append.1 he with he | he
  · obtain ⟨a, ha, rfl⟩ := Option.map_eq_some_iff.1 (Option.mem_toList.1 he)
    exact ⟨(hpayload.member? ha).ordered, haction a ha⟩
  · obtain ⟨name, hname, rfl⟩ := Option.map_eq_some_iff.1 (Option.mem_toList.1 he)
    obtain ⟨repository, hrepository, hfull⟩ := Option.bind_eq_some_iff.1 hname
    exact (hpayload.member? hrepository).member? hfull

/-- The details of each rule nest no deeper than what they are taken from. -/
theorem within_details (hroom : 0 < room) (hsubject : subject.Within (room + 1)) {rule : Rule}
    (hrule : rule ∈ rules) : ∀ e ∈ (rule.details payload subject).metadata, e.2.Within room := by
  have hcommon := within_commonDetails hpayload haction
  intro e he
  simp only [rules, List.mem_cons, List.not_mem_nil, or_false] at hrule
  rcases hrule with rfl | rfl | rfl
  all_goals
    rcases List.mem_append.1 (Keyed.mem_ofList he) with he | he
    · exact hcommon e he
    simp only [List.mem_cons, List.not_mem_nil, or_false] at he
  · rcases he with rfl | rfl | rfl
    · exact within_labels hroom hsubject
    · exact within_login hsubject "assignee"
    · exact Value.within_ofString? _ room
  · rcases he with rfl | rfl | rfl | rfl
    · exact Value.within_boolean _ room
    · exact Value.within_boolean _ room
    · exact within_login hsubject "user"
    · exact Value.within_ofString? _ room
  · rcases he with rfl | rfl | rfl <;> exact Value.within_ofString? _ room

end Details

/-! ## Drafts -/

/-- The draft that a payload becomes, if it becomes one. -/
def Outcome.draft? : Outcome → Option Draft
  | .record draft => some draft
  | _ => none

/-- The fields of a draft, in the order in which they are given. -/
def Rule.fields (rule : Rule) (payload subject : Value) (identifier : String) (now : UInt64) :
    List (String × Value) :=
  let details := rule.details payload subject
  [("key", .string (composedKey rule.entityType (rule.idStem ++ identifier))),
   ("entity_type", .string rule.entityType), ("id", .string (rule.idStem ++ identifier)),
   ("status", .string (rule.status (action? payload) subject).text),
   ("metadata", .object details.metadata), ("updated_at", .ofWord now)]
  ++ (details.name.map fun name => ("name", Value.string name)).toList
  ++ (details.reference.map fun reference => ("github_ref", Value.string reference)).toList

theorem record_draft (rule : Rule) (payload subject : Value) (identifier : String) (now : UInt64) :
    (rule.draft payload subject identifier now).record =
      ⟨Keyed.ofList (rule.fields payload subject identifier now)⟩ := rfl

theorem get?_draft (rule : Rule) (payload subject : Value) (identifier : String) (now : UInt64)
    (field : String) :
    (rule.draft payload subject identifier now).record.get? field =
      Keyed.get? field (Keyed.ofList (rule.fields payload subject identifier now)) := by
  rw [record_draft, Record.get?]

/-- Six fields are always given, two if the details have them. -/
theorem mem_fields_iff {rule : Rule} {payload subject : Value} {identifier : String} {now : UInt64}
    {e : String × Value} :
    e ∈ rule.fields payload subject identifier now ↔
      e = ("key", .string (composedKey rule.entityType (rule.idStem ++ identifier))) ∨
      e = ("entity_type", .string rule.entityType) ∨
      e = ("id", .string (rule.idStem ++ identifier)) ∨
      e = ("status", .string (rule.status (action? payload) subject).text) ∨
      e = ("metadata", .object (rule.details payload subject).metadata) ∨
      e = ("updated_at", .ofWord now) ∨
      (∃ name, (rule.details payload subject).name = some name ∧ ("name", Value.string name) = e) ∨
      ∃ reference, (rule.details payload subject).reference = some reference ∧
        ("github_ref", Value.string reference) = e := by
  simp only [Rule.fields, List.mem_append, List.mem_cons, List.not_mem_nil, or_false,
    Option.mem_toList, Option.map_eq_some_iff, or_assoc]

theorem metadata_isSorted {rule : Rule} (hrule : rule ∈ rules) (payload subject : Value) :
    Keyed.IsSorted (rule.details payload subject).metadata := by
  simp only [rules, List.mem_cons, List.not_mem_nil, or_false] at hrule
  rcases hrule with rfl | rfl | rfl <;> exact Keyed.isSorted_ofList _

/-- A delivery becomes a record if its event has a rule, and its payload what the rule asks for. -/
theorem normalize_eq_record_iff {event : String} {payload : Value} {now : UInt64} {draft : Draft} :
    normalize event payload now = .record draft ↔
      ∃ rule subject identifier, rule? event = some rule ∧ rule.subject? payload = some subject ∧
        rule.identifier? subject = some identifier ∧
        rule.draft payload subject identifier now = draft := by
  unfold normalize
  constructor
  · intro h
    split at h
    · cases h
    next rule hrule =>
      split at h
      · cases h
      next subject hsubject =>
        split at h
        · cases h
        next identifier hidentifier =>
          exact ⟨rule, subject, identifier, hrule, hsubject, hidentifier, Outcome.record.inj h⟩
  · rintro ⟨rule, subject, identifier, hrule, hsubject, hidentifier, rfl⟩
    simp only [hrule, hsubject, hidentifier]

/-- What a delivery must be to become a record. -/
theorem exists_of_normalize {event : String} {payload : Value} {now : UInt64} {draft : Draft}
    (h : normalize event payload now = .record draft) :
    ∃ rule ∈ rules, ∃ subject identifier, payload.member? rule.subject = some subject ∧
      draft = rule.draft payload subject identifier now := by
  obtain ⟨rule, subject, identifier, hrule, hsubject, -, rfl⟩ := normalize_eq_record_iff.1 h
  have hmember := (Option.filter_eq_some_iff.1 hsubject).1
  exact ⟨rule, List.mem_of_find?_eq_some hrule, subject, identifier, hmember, rfl⟩

/-- A draft nests no deeper than its payload, if the action nests one bracket less. -/
theorem within_draft {event : String} {payload : Value} {now : UInt64} {draft : Draft} {room : Nat}
    (hroom : 0 < room) (hpayload : payload.Within (room + 2))
    (haction : ∀ a, payload.member? "action" = some a → a.depth ≤ room)
    (h : normalize event payload now = .record draft) :
    draft.record.toValue.Within (room + 2) := by
  obtain ⟨rule, hrule, subject, identifier, hsubject, rfl⟩ := exists_of_normalize h
  have hdetails := within_details hpayload haction hroom (hpayload.member? hsubject) hrule
  have hmetadata : (Value.object (rule.details payload subject).metadata).Within (room + 1) :=
    Value.within_object_iff.2 ⟨metadata_isSorted hrule payload subject, hdetails⟩
  rw [record_draft, Record.toValue]
  apply Value.within_object_ofList
  intro e he
  rcases mem_fields_iff.1 he with
    rfl | rfl | rfl | rfl | rfl | rfl | ⟨name, -, rfl⟩ | ⟨reference, -, rfl⟩
  -- Only the details have brackets of their own.
  case inr.inr.inr.inr.inl => exact hmetadata
  all_goals exact ⟨trivial, Nat.zero_le _⟩

theorem nodup_fields (rule : Rule) (payload subject : Value) (identifier : String) (now : UInt64) :
    (Keyed.keys (rule.fields payload subject identifier now)).Nodup := by
  unfold Rule.fields
  dsimp only
  cases (rule.details payload subject).name <;> cases (rule.details payload subject).reference <;>
    simp [Keyed.keys]

/-- The fields that are given are those of the draft. -/
theorem get?_draft_of_mem {rule : Rule} {payload subject : Value} {identifier : String}
    {now : UInt64} {field : String} {value : Value}
    (h : (field, value) ∈ rule.fields payload subject identifier now) :
    (rule.draft payload subject identifier now).record.get? field = some value := by
  rw [get?_draft]
  exact Keyed.get?_ofList_of_mem (nodup_fields rule payload subject identifier now) h

/-- A draft names the key under which it goes, -/
theorem get?_key_draft (rule : Rule) (payload subject : Value) (identifier : String)
    (now : UInt64) :
    (rule.draft payload subject identifier now).record.get? "key" =
      some (.string (rule.draft payload subject identifier now).key) :=
  get?_draft_of_mem (mem_fields_iff.2 (.inl rfl))

/-- and its status. -/
theorem get?_status_draft (rule : Rule) (payload subject : Value) (identifier : String)
    (now : UInt64) :
    (rule.draft payload subject identifier now).record.get? "status" =
      some (.string (rule.draft payload subject identifier now).status.text) :=
  get?_draft_of_mem (mem_fields_iff.2 (.inr (.inr (.inr (.inl rfl)))))

/-! ## The action of a draft -/

/-- The details of each rule hold the action as it is. -/
theorem get?_action {rule : Rule} (hrule : rule ∈ rules) {payload a : Value}
    (ha : payload.member? "action" = some a) (subject : Value) :
    Keyed.get? "action" (rule.details payload subject).metadata = some a := by
  have hcommon : ∃ back, commonDetails payload = [] ++ ("action", a) :: back ∧
      ∀ e ∈ back, e.1 ≠ "action" := by
    refine ⟨_, by rw [commonDetails, ha]; rfl, fun e he => ?_⟩
    obtain ⟨name, -, rfl⟩ := Option.map_eq_some_iff.1 (Option.mem_toList.1 he)
    exact (by decide : "repository" ≠ "action")
  obtain ⟨back, hcommon, hback⟩ := hcommon
  simp only [rules, List.mem_cons, List.not_mem_nil, or_false] at hrule
  rcases hrule with rfl | rfl | rfl
  all_goals
    simp only [issueRule, pullRequestRule, deploymentRule, Details.ofIssue, Details.ofPullRequest,
      Details.ofDeployment]
    rw [hcommon, List.append_assoc, List.cons_append]
    refine Keyed.get?_ofList_append_cons [] fun e he => ?_
    rcases List.mem_append.1 he with he | he
    · exact hback e he
    · simp only [List.mem_cons, List.not_mem_nil, or_false] at he
      rcases he with rfl | rfl | rfl | rfl <;> simp

/-- A draft keeps the details together. -/
theorem get?_metadata (rule : Rule) (payload subject : Value) (identifier : String) (now : UInt64) :
    (rule.draft payload subject identifier now).record.get? "metadata" =
      some (.object (rule.details payload subject).metadata) :=
  get?_draft_of_mem (mem_fields_iff.2 (by simp))

/-! ## The clock of a draft -/

/-- A draft says nothing about the first write. -/
theorem get?_created (rule : Rule) (payload subject : Value) (identifier : String) (now : UInt64) :
    (rule.draft payload subject identifier now).record.get? "created_at" = none := by
  rw [get?_draft]
  refine Keyed.get?_ofList_eq_none fun e he => ?_
  rcases mem_fields_iff.1 he with
    rfl | rfl | rfl | rfl | rfl | rfl | ⟨name, -, rfl⟩ | ⟨reference, -, rfl⟩ <;> simp

/-- The clock has a part in nothing but the moment of the last write. -/
theorem get?_draft_of_ne {field : String} (h : field ≠ "updated_at") (rule : Rule)
    (payload subject : Value) (identifier : String) (now now' : UInt64) :
    (rule.draft payload subject identifier now).record.get? field =
      (rule.draft payload subject identifier now').record.get? field := by
  rw [get?_draft, get?_draft, Rule.fields, Rule.fields, List.append_assoc, List.append_assoc]
  exact Keyed.get?_ofList_replace h [_, _, _, _, _] _ _ (_ ++ _)

/-- A delivery that became a record at one clock reading becomes one at any other, under the same
key. -/
theorem exists_normalize_of_clock {event : String} {payload : Value} {now : UInt64} {draft : Draft}
    (h : normalize event payload now = .record draft) (now' : UInt64) :
    ∃ draft', normalize event payload now' = .record draft' ∧ draft'.key = draft.key ∧
      ∀ field, field ≠ "updated_at" → draft.record.get? field = draft'.record.get? field := by
  obtain ⟨rule, subject, identifier, hrule, hsubject, hidentifier, rfl⟩ :=
    normalize_eq_record_iff.1 h
  exact ⟨rule.draft payload subject identifier now',
    normalize_eq_record_iff.2 ⟨rule, subject, identifier, hrule, hsubject, hidentifier, rfl⟩, rfl,
    fun field hfield => get?_draft_of_ne hfield rule payload subject identifier now now'⟩

end RecordBoard.Delivery
