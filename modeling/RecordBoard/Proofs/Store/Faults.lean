import RecordBoard.Proofs.Store.Records

/-!
# How calls on a store end badly

A call comes to trouble for one of five reasons.  A fault that is laid down makes it fail or break
down, with words or without; a value that is stored is no record; or the cursor of a listing is
none.  Each reason settles what is said about the trouble, word for word.

The list of reasons is shown to be complete call by call.  What a sequence of calls ends with is
what one of its calls ended with, and what is read of the table along the way comes from the table.

## Main definitions

* `Trouble.IsFrom` — the reasons, with the words that belong to them.
* `Backend.NeverPanics` — no fault makes a call break down.

## Main results

* `Trouble.IsFrom.message` — the words are those that are told.
* `ends_getRecord`, `ends_upsert`, `ends_listRecords` and so on — no call ends for another reason.
* `isFailure_of_isFrom` — on a store that does not break down trouble is always a failure.
-/

namespace RecordBoard

/-- A fault in a text is told with its place. -/
theorem Json.Fault.message_mk (cause : Json.Cause) (line column : Nat) :
    Json.Fault.message ⟨cause, line, column⟩ =
      cause.message ++ " at line " ++ toString line ++ " column " ++ toString column := rfl

namespace Store

/-! ## Reasons -/

/-- The faults that are laid down for a store. -/
def Backend.faults : Backend → List Fault
  | .direct => []
  | .subject faults => faults

/-- What is said about trouble. -/
def Trouble.message : Trouble → String
  | .failure f => f.message
  | .panic p => p.message

/--
Why a call ended badly, on a store with this table that is listed from this cursor, and what is said
about it.
-/
inductive Trouble.IsFrom (b : Backend) (t : Table) (cursor : Option String) :
    Trouble → String → Prop
  /-- The fault that concerns the call makes it fail. -/
  | fails {call : Call} {key : String} {activity : Activity} {detail : String}
      (heffect : b.effectOn? call key = some (.fails ⟨activity, detail⟩)) :
      IsFrom b t cursor (.failure ⟨activity, detail⟩) (activity.text ++ ": " ++ detail)
  /-- It makes it break down, and leaves a text. -/
  | panics {call : Call} {key words : String}
      (heffect : b.effectOn? call key = some (.panics (.text words))) :
      IsFrom b t cursor (.panic (.text words)) words
  /-- It makes it break down, and leaves no text. -/
  | wordless {call : Call} {key : String}
      (heffect : b.effectOn? call key = some (.panics .wordless)) :
      IsFrom b t cursor (.panic .wordless) "handler panicked"
  /-- A value in the table is no record. -/
  | unreadable {key : String} {value : Bytes} {cause : Json.Cause} {line column : Nat}
      (hvalue : t.get? key = some value) (h : Record.decode value = .error ⟨cause, line, column⟩) :
      IsFrom b t cursor (.failure (.unreadableRecord ⟨cause, line, column⟩))
        ("deserialization error: " ++ cause.message ++ " at line " ++ toString line ++ " column "
          ++ toString column)
  /-- The cursor is none. -/
  | badCursor {text : String} {f : Cursor.Fault} (hcursor : cursor = some text)
      (h : Cursor.decode text = .error f) :
      IsFrom b t cursor (.failure (.badCursor f)) ("invalid cursor: " ++ f.message)

namespace Trouble

variable {b : Backend} {t : Table} {cursor : Option String} {e : Trouble} {words : String}

/-- The words are those that are told. -/
theorem IsFrom.message (h : e.IsFrom b t cursor words) : e.message = words := by
  cases h with
  | fails _ | panics _ | wordless _ | badCursor _ _ => rfl
  | unreadable _ _ =>
    simp only [Trouble.message, Failure.message, Failure.unreadableRecord, Activity.text,
      Json.Fault.message_mk, String.append_assoc]
    rfl

/-- A breakdown has nothing to do with the table. -/
theorem IsFrom.panic {p : Panic} (h : (Trouble.panic p).IsFrom b t cursor words) (t' : Table) :
    (Trouble.panic p).IsFrom b t' cursor words := by
  cases h with
  | panics heffect => exact .panics heffect
  | wordless heffect => exact .wordless heffect

/-- A cursor that is none is none wherever it is brought. -/
theorem IsFrom.mono {cursor' : Option String} (h : e.IsFrom b t cursor words)
    (hcursor : ∀ text, cursor = some text → cursor' = some text) : e.IsFrom b t cursor' words := by
  cases h with
  | fails heffect => exact .fails heffect
  | panics heffect => exact .panics heffect
  | wordless heffect => exact .wordless heffect
  | unreadable hvalue h => exact .unreadable hvalue h
  | badCursor htext h => exact .badCursor (hcursor _ htext) h

/-- There is a reason for the trouble. -/
def Arises (b : Backend) (t : Table) (cursor : Option String) (e : Trouble) : Prop :=
  ∃ words, e.IsFrom b t cursor words

end Trouble

/-! ## Calls -/

namespace Backend

variable (b : Backend) (t : Table) (cursor : Option String)

theorem mem_faults_of_effectOn {call : Call} {key : String} {effect : Effect} {b : Backend}
    (h : b.effectOn? call key = some effect) : ∃ fault ∈ b.faults, fault.effect = effect := by
  cases b with
  | direct => cases h
  | subject faults =>
    obtain ⟨fault, hfault, heffect⟩ := Option.map_eq_some_iff.1 h
    exact ⟨fault, List.mem_of_find?_eq_some hfault, heffect⟩

theorem ends_effect {α : Type} {call : Call} {key : String} {effect : Effect} (swallowed : α)
    (h : b.effectOn? call key = some effect) :
    Ends (Trouble.Arises b t cursor) (effect.result swallowed) := by
  cases effect with
  | panics p =>
    cases p with
    | text words => exact .error ⟨_, .panics h⟩
    | wordless => exact .error ⟨_, .wordless h⟩
  | fails f => exact .error ⟨_, .fails h⟩
  | swallows => exact .ok _

/-- A call that looks at the table ends by a fault, if not by what it comes to there. -/
theorem ends_through {α : Type} (call : Call) (key : String) (swallowed : α)
    {answered : Except Failure α}
    (h : ∀ f, answered = .error f → (Trouble.failure f).Arises b t cursor) :
    Ends (Trouble.Arises b t cursor) (b.through call key swallowed answered) := by
  unfold through
  cases heffect : b.effectOn? call key with
  | none => exact .mapError h
  | some effect => exact b.ends_effect t cursor swallowed heffect

/-- One that writes ends by a fault. -/
theorem ends_writing {α : Type} (call : Call) (key : String) (swallowed : α)
    (write : Table → Table × α) (t' : Table) :
    Ends (Trouble.Arises b t cursor) (b.writing call key swallowed write t').2 := by
  unfold writing
  cases heffect : b.effectOn? call key with
  | none => exact .ok _
  | some effect => exact b.ends_effect t cursor swallowed heffect

theorem ends_get (key : String) : Ends (Trouble.Arises b t cursor) (b.get t key) :=
  b.ends_through t cursor _ _ _ nofun

theorem ends_list (stem : String) (limit : Nat) :
    Ends (Trouble.Arises b t cursor) (b.list t stem limit cursor) := by
  refine b.ends_through t cursor _ _ _ fun f hf => ?_
  cases cursor with
  | none => cases hf
  | some text =>
    dsimp only at hf
    split at hf
    · cases hf
    next hcursor =>
      cases hf
      exact ⟨_, .badCursor rfl hcursor⟩

/-- What is got is in the table. -/
theorem get?_of_get {key : String} {value : Bytes} {b : Backend} {t : Table}
    (h : b.get t key = .ok (some value)) : t.get? key = some value := by
  unfold get through at h
  cases heffect : b.effectOn? .get key with
  | none =>
    rw [heffect] at h
    exact Except.ok.inj h
  | some effect =>
    rw [heffect] at h
    cases effect <;> cases h

theorem get?_of_mem_getEach {keys : List String} {found : List (String × Bytes)} {b : Backend}
    {t : Table} (h : b.getEach t keys = .ok found) : ∀ e ∈ found, t.get? e.1 = some e.2 := by
  induction keys generalizing found with
  | nil =>
    cases h
    nofun
  | cons key rest ih =>
    obtain ⟨value, hvalue, h⟩ := exists_of_bind h
    obtain ⟨others, hothers, h⟩ := exists_of_bind h
    cases value with
    | none =>
      cases h
      exact ih hothers
    | some value =>
      cases h
      exact List.forall_mem_cons.2 ⟨get?_of_get hvalue, ih hothers⟩

theorem get?_of_mem_getMany {keys : List String} {found : List (String × Bytes)} {b : Backend}
    {t : Table} (h : b.getMany t keys = .ok found) : ∀ e ∈ found, t.get? e.1 = some e.2 := by
  cases b with
  | direct =>
    cases h
    intro e he
    obtain ⟨key, -, hkey⟩ := List.mem_filterMap.1 he
    obtain ⟨value, hvalue, rfl⟩ := Option.map_eq_some_iff.1 hkey
    exact hvalue
  | subject faults => exact get?_of_mem_getEach h

theorem ends_getEach (keys : List String) :
    Ends (Trouble.Arises b t cursor) (b.getEach t keys) := by
  induction keys with
  | nil => exact .ok _
  | cons key rest ih => exact (b.ends_get t cursor key).bind fun _ _ => ih.bind fun _ _ => .ok _

theorem ends_getMany (keys : List String) :
    Ends (Trouble.Arises b t cursor) (b.getMany t keys) := by
  cases b with
  | direct => exact .ok _
  | subject faults => exact ends_getEach _ t cursor keys

theorem ends_readRecord {key : String} {value : Bytes} (hvalue : t.get? key = some value) :
    Ends (Trouble.Arises b t cursor) (readRecord value) :=
  .mapError fun _ hf => ⟨_, .unreadable hvalue hf⟩

theorem ends_readRecords {found : List (String × Bytes)}
    (hfound : ∀ e ∈ found, t.get? e.1 = some e.2) :
    Ends (Trouble.Arises b t cursor) (readRecords found) := by
  induction found with
  | nil => exact .ok _
  | cons e rest ih =>
    obtain ⟨he, hrest⟩ := List.forall_mem_cons.1 hfound
    exact (b.ends_readRecord t cursor he).bind fun _ _ => (ih hrest).bind fun _ _ => .ok _

theorem ends_getRecord (key : String) : Ends (Trouble.Arises b t cursor) (b.getRecord t key) := by
  refine (b.ends_get t cursor key).bind fun found hfound => ?_
  cases found with
  | none => exact .ok _
  | some value => exact (b.ends_readRecord t cursor (get?_of_get hfound)).bind fun _ _ => .ok _

theorem ends_upsert (key : String) (r : Record) (now : UInt64) :
    Ends (Trouble.Arises b t cursor) (b.upsert key r now t).2 :=
  .reading (b.ends_getRecord t cursor key) fun _ _ =>
    .andThen (b.ends_writing t cursor _ _ _ _ t) fun _ _ => .ok _

theorem ends_listRecords (stem : String) (limit : Nat) :
    Ends (Trouble.Arises b t cursor) (b.listRecords t stem limit cursor) :=
  (b.ends_list t cursor stem limit).bind fun page _ =>
    (b.ends_getMany t cursor page.keys).bind fun _ hfound =>
      (b.ends_readRecords t cursor (get?_of_mem_getMany hfound)).bind fun _ _ => .ok _

theorem ends_scan (limit : Nat) : Ends (Trouble.Arises b t none) (b.scan t limit) :=
  (b.ends_listRecords t none "" limit).bind fun _ _ => .ok _

/-! ## Stores that do not break down -/

/-- No fault of the store makes a call break down. -/
def NeverPanics : Backend → Prop
  | .direct => True
  | .subject faults => ∀ f ∈ faults, ∀ p, f.effect ≠ .panics p

variable {b t cursor} (hb : b.NeverPanics)

include hb

theorem effectOn_ne_panics (call : Call) (key : String) (p : Panic) :
    b.effectOn? call key ≠ some (.panics p) := by
  intro hp
  obtain ⟨fault, hfault, heffect⟩ := mem_faults_of_effectOn hp
  cases b with
  | direct => cases hfault
  | subject faults => exact hb fault hfault p heffect

/-- On such a store trouble is always a failure. -/
theorem isFailure_of_isFrom {e : Trouble} (h : e.Arises b t cursor) : ∃ f, e = .failure f := by
  obtain ⟨words, h⟩ := h
  cases h with
  | fails _ | unreadable _ _ | badCursor _ _ => exact ⟨_, rfl⟩
  | panics heffect | wordless heffect => exact absurd heffect (effectOn_ne_panics hb _ _ _)

end Backend

end Store

end RecordBoard
