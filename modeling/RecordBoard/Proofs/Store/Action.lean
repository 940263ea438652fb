import RecordBoard.Store.Action

/-!
# How actions are put together

What a sequence of actions does is known from its parts: the first action is done on the table that
is met, and the next one on the table that it leaves, unless it came to an error.

An action may write and then come to an error, and then what it wrote stays. So it takes an argument
to see that a failed action leaves no trace. The argument is the order: whatever only looks at the
table may stand in front, and behind an action that writes nothing may stand that can fail.

## Main definitions

* `IsReading` — an action that leaves every table alone.
* `IsAtomic` — an action that leaves the table alone if it comes to an error.
* `Gives`, `Ends` — what is true of every result of an action, and of every error of a result.

## Main results

* `snd_bind` — what a sequence comes to.
* `IsReading.bind`, `IsAtomic.behind`, `IsAtomic.andReturn` — how such actions are put together.
* `Gives.after`, `Ends.bind`, `Ends.andThen` — a sequence is taken apart in the order of its steps.
-/

namespace RecordBoard

namespace Store.Action

variable {ε ε' α β : Type} {action : Action ε α} {next : α → Action ε β} {t : Table}

/-! ## Sequences -/

theorem bind_of_ok {new : Table} {a : α} (h : action t = (new, .ok a)) :
    (action >>= next) t = next a new := by
  show Action.bind action next t = _
  unfold Action.bind
  rw [h]

theorem bind_of_error {new : Table} {e : ε} (h : action t = (new, .error e)) :
    (action >>= next) t = (new, .error e) := by
  show Action.bind action next t = _
  unfold Action.bind
  rw [h]

/-- A check that is passed is passed by. -/
theorem check_bind (a : α) (next : α → Action ε β) :
    ((liftM (.ok a : Except ε α) : Action ε α) >>= next) = next a := rfl

/-- What is done behind an action that came to this. -/
def following (next : α → Action ε β) : Except ε α → Action ε β
  | .ok a => next a
  | .error e => reading fun _ => .error e

theorem bind_eq_following (action : Action ε α) (next : α → Action ε β) :
    (action >>= next) = fun t => following next (action t).2 (action t).1 := by
  funext t
  rcases haction : action t with ⟨new, e | a⟩
  · exact bind_of_error haction
  · exact bind_of_ok haction

/-- A sequence that came to a result did so one part after the other. -/
theorem exists_of_bind {last : Table} {b : β} (h : (action >>= next) t = (last, .ok b)) :
    ∃ new a, action t = (new, .ok a) ∧ next a new = (last, .ok b) := by
  rcases haction : action t with ⟨new, e | a⟩
  · rw [bind_of_error haction] at h
    cases h
  · rw [bind_of_ok haction] at h
    exact ⟨new, a, rfl, h⟩

theorem exists_of_reading {view : Table → Except ε α} {last : Table} {b : β}
    (h : (reading view >>= next) t = (last, .ok b)) :
    ∃ a, view t = .ok a ∧ next a t = (last, .ok b) := by
  obtain ⟨new, a, ha, h⟩ := exists_of_bind h
  have hsame : t = new := congrArg Prod.fst ha
  rw [← hsame] at h
  exact ⟨a, congrArg Prod.snd ha, h⟩

theorem exists_of_check {result : Except ε α} {last : Table} {b : β}
    (h : ((liftM result : Action ε α) >>= next) t = (last, .ok b)) :
    ∃ a, result = .ok a ∧ next a t = (last, .ok b) :=
  @exists_of_reading ε α β next t (fun _ => result) last b h

/-- What a sequence comes to is what its results come to. -/
theorem snd_bind (action : Action ε α) (next : α → Action ε β) (t : Table) :
    ((action >>= next) t).2 = (action t).2 >>= fun a => (next a (action t).1).2 := by
  rcases haction : action t with ⟨new, e | a⟩
  · rw [bind_of_error haction]
    rfl
  · rw [bind_of_ok haction]
    rfl

/-- To make something of what an action came to does not write. -/
theorem bind_pure_apply (action : Action ε α) (f : α → β) (t : Table) :
    (action >>= fun a => pure (f a)) t = ((action t).1, (action t).2.map f) := by
  rcases haction : action t with ⟨new, e | a⟩
  · rw [bind_of_error haction]
    rfl
  · rw [bind_of_ok haction]
    rfl

/-! ## Actions that only look -/

/-- The action leaves every table alone. -/
def IsReading (action : Action ε α) : Prop := ∀ t, (action t).1 = t

theorem isReading_reading (view : Table → Except ε α) : IsReading (reading view) := fun _ => rfl

theorem isReading_check (result : Except ε α) : IsReading (liftM result : Action ε α) :=
  fun _ => rfl

theorem isReading_pure (a : α) : IsReading (pure a : Action ε α) := fun _ => rfl

theorem IsReading.bind (h : IsReading action) (hnext : ∀ a, IsReading (next a)) :
    IsReading (action >>= next) := by
  intro t
  rcases haction : action t with ⟨new, e | a⟩
  · rw [bind_of_error haction, ← h t, haction]
  · rw [bind_of_ok haction, hnext, ← h t, haction]

/-! ## Actions that are done as a whole or not at all -/

/-- The action leaves the table alone if it comes to an error. -/
def IsAtomic (action : Action ε α) : Prop := ∀ t e, (action t).2 = .error e → (action t).1 = t

theorem IsReading.isAtomic (h : IsReading action) : IsAtomic action := fun t _ _ => h t

/-- What only looks at the table may stand in front. -/
theorem IsAtomic.behind (h : IsReading action) (hnext : ∀ a, IsAtomic (next a)) :
    IsAtomic (action >>= next) := by
  intro t e he
  have hsame := h t
  rcases haction : action t with ⟨new, e' | a⟩
  · rw [bind_of_error haction, ← hsame, haction]
  · rw [haction] at hsame
    rw [bind_of_ok haction] at he ⊢
    rw [hnext a new e he]
    exact hsame

/-- Behind an action that writes a result may be made of what it came to. -/
theorem IsAtomic.andReturn (h : IsAtomic action) (f : α → β) :
    IsAtomic (action >>= fun a => pure (f a)) := by
  intro t e he
  rw [bind_pure_apply] at he ⊢
  cases hresult : (action t).2 with
  | error e' => exact h t e' hresult
  | ok a =>
    rw [hresult] at he
    cases he

/-- A result may be told in another way, as long as it is not made an error. -/
theorem IsAtomic.told {f : Except ε α → Except ε' β} (h : IsAtomic action)
    (hf : ∀ a e, f (.ok a) ≠ .error e) : IsAtomic (action.told f) := by
  intro t e he
  cases hresult : (action t).2 with
  | error e' => exact h t e' hresult
  | ok a =>
    have hnever : f (action t).2 = .error e := he
    rw [hresult] at hnever
    exact absurd hnever (hf a e)

/-! ## What actions give -/

/-- Whatever the action comes to has a property. -/
def Gives (P : α → Prop) (action : Action ε α) : Prop := ∀ t a, (action t).2 = .ok a → P a

theorem gives_pure {P : α → Prop} {a : α} (h : P a) : Gives P (pure a : Action ε α) := by
  intro t a' ha
  cases ha
  exact h

theorem gives_error {P : α → Prop} (e : ε) :
    Gives P (liftM (.error e : Except ε α) : Action ε α) := by
  intro t a ha
  cases ha

/-- What comes last decides, whatever the action in front of it came to. -/
theorem Gives.after {P : β → Prop} (h : ∀ a, Gives P (next a)) : Gives P (action >>= next) := by
  intro t b hb
  rcases haction : action t with ⟨new, e | a⟩
  · rw [bind_of_error haction] at hb
    cases hb
  · rw [bind_of_ok haction] at hb
    exact h a new b hb

end Store.Action

/-! ## What results end with -/

/-- The first of two steps that succeed one after the other. -/
theorem exists_of_bind {ε α β : Type} {result : Except ε α} {next : α → Except ε β} {b : β}
    (h : result >>= next = .ok b) : ∃ a, result = .ok a ∧ next a = .ok b := by
  cases result with
  | error e => cases h
  | ok a => exact ⟨a, rfl, h⟩

/-- Whatever error the result is has a property. -/
def Ends {ε α : Type} (P : ε → Prop) (result : Except ε α) : Prop := ∀ e, result = .error e → P e

namespace Ends

variable {ε ε' α β : Type} {P : ε → Prop}

theorem ok (a : α) : Ends P (.ok a) := nofun

theorem error {e : ε} (h : P e) : Ends P (.error e : Except ε α) := by
  intro e' heq
  cases heq
  exact h

theorem bind {result : Except ε α} {next : α → Except ε β} (h : Ends P result)
    (hnext : ∀ a, result = .ok a → Ends P (next a)) : Ends P (result >>= next) := by
  cases result with
  | error e => exact error (h e rfl)
  | ok a => exact hnext a rfl

section Actions

variable {next : α → Store.Action ε β} {t : Store.Table}

/-- In a sequence of actions the next one is done on the table that the first one leaves. -/
theorem andThen {action : Store.Action ε α} (h : Ends P (action t).2)
    (hnext : ∀ a, (action t).2 = .ok a → Ends P (next a (action t).1).2) :
    Ends P ((action >>= next) t).2 := by
  rw [Store.Action.snd_bind]
  exact h.bind hnext

theorem reading {view : Store.Table → Except ε α} (h : Ends P (view t))
    (hnext : ∀ a, view t = .ok a → Ends P (next a t).2) :
    Ends P ((Store.Action.reading view >>= next) t).2 :=
  andThen h hnext

theorem check {result : Except ε α} (h : Ends P result)
    (hnext : ∀ a, result = .ok a → Ends P (next a t).2) :
    Ends P (((liftM result : Store.Action ε α) >>= next) t).2 :=
  andThen h hnext

end Actions

/-- What ends with something else instead. -/
theorem mapError {Q : ε' → Prop} {f : ε → ε'} {result : Except ε α}
    (h : ∀ e, result = .error e → Q (f e)) : Ends Q (result.mapError f) := by
  cases result with
  | error e => exact error (h e rfl)
  | ok a => exact ok a

end Ends

end RecordBoard
