import RecordBoard.Store.Table

/-!
# Actions on a table

An action meets a table and leaves one, whatever it comes to: a result, or an error. Nothing is
taken back: what an action wrote before it came to an error stays written. One action after another
is done up to the first error.

To look at the table is an action that leaves it alone. So is a check that does not look at it,
which is why checks can stand among actions as they are.

## Main definitions

* `Action` — what is done to a table.
* `Action.reading` — looks at the table.
* `Action.told` — tells in another way what an action comes to.
-/

namespace RecordBoard.Store

/-- What is done to a table: it leaves a table, and it comes to a result or to an error. -/
def Action (ε α : Type) : Type := Table → Table × Except ε α

namespace Action

variable {ε ε' α β : Type}

/-- Looks at the table and leaves it alone. -/
def reading (view : Table → Except ε α) : Action ε α := fun t => (t, view t)

/-- One action and then another on the table that it leaves, unless it comes to an error. -/
protected def bind (action : Action ε α) (next : α → Action ε β) : Action ε β := fun t =>
  match action t with
  | (new, .ok a) => next a new
  | (new, .error e) => (new, .error e)

instance : Monad (Action ε) where
  pure a := reading fun _ => .ok a
  bind := Action.bind

/-- A check is an action that does not look at the table. -/
instance : MonadLift (Except ε) (Action ε) where
  monadLift result := reading fun _ => result

/-- The same action, and what it comes to told in another way. -/
def told (f : Except ε α → Except ε' β) (action : Action ε α) : Action ε' β := fun t =>
  ((action t).1, f (action t).2)

end Action

end RecordBoard.Store
