import RecordBoard.Store.Action

/-!
# Calls on a store

A table answers four calls: get, put, delete and list, and one more that gets many keys at once. A
store may also misbehave in ways that are laid down beforehand: a list of faults says which calls
fail, break down, or are answered as if the table were empty and swallowed what it is told. For each
call the first fault that concerns it counts.

Two calls only look at the table. The others, `put` and `delete`, are actions on it.

A store with a list of faults, be it an empty one, gets many keys one after the other, each time
subject to the faults; a store without gets them from one view of the table.
-/

namespace RecordBoard.Store

/-- The kinds of calls that may be at fault. -/
inductive Call where
  | get
  | put
  | delete
  | list
deriving DecidableEq

/-- What a fault does to a call. -/
inductive Effect where
  /-- The call breaks down. -/
  | panics (p : Panic)
  /-- The call fails. -/
  | fails (f : Failure)
  /-- The call is answered without reaching the table. -/
  | swallows
deriving DecidableEq

/-- What a call comes to that does not reach the table, if `swallowed` answers it. -/
def Effect.result {α : Type} (swallowed : α) : Effect → Except Trouble α
  | .panics p => .error (.panic p)
  | .fails f => .error (.failure f)
  | .swallows => .ok swallowed

/-- A fault that is laid down beforehand. -/
structure Fault where
  /-- The call that it concerns. -/
  call : Call
  /-- The key, or for a listing the stem, if it concerns only one. -/
  key : Option String
  /-- What happens to the call. -/
  effect : Effect
deriving DecidableEq

/-- Whether a fault concerns a call on a key. -/
def Fault.concerns (call : Call) (key : String) (f : Fault) : Bool :=
  f.call == call && (f.key.all (· == key))

/-- How a store treats its calls: directly, or subject to faults. -/
inductive Backend where
  /-- Every call reaches the table. -/
  | direct
  /-- A call reaches the table if no fault concerns it. -/
  | subject (faults : List Fault)

namespace Backend

/-- The first fault that concerns a call. -/
def effectOn? (call : Call) (key : String) : Backend → Option Effect
  | .direct => none
  | .subject faults => (faults.find? (Fault.concerns call key)).map Fault.effect

/-- A call that looks at the table: `swallowed` answers it if it does not get there, `answered` if
it does. -/
def through {α : Type} (b : Backend) (call : Call) (key : String) (swallowed : α)
    (answered : Except Failure α) : Except Trouble α :=
  match b.effectOn? call key with
  | some effect => effect.result swallowed
  | none => answered.mapError .failure

/-- A call that writes: `swallowed` answers it if it does not reach the table, `write` is done if it
does. -/
def writing {α : Type} (b : Backend) (call : Call) (key : String) (swallowed : α)
    (write : Table → Table × α) : Action Trouble α := fun t =>
  match b.effectOn? call key with
  | some effect => (t, effect.result swallowed)
  | none => ((write t).1, .ok (write t).2)

/-- The value under a key. -/
def get (b : Backend) (t : Table) (key : String) : Except Trouble (Option Bytes) :=
  b.through .get key none (.ok (t.get? key))

/-- Puts a value under a key. -/
def put (b : Backend) (key : String) (value : Bytes) : Action Trouble Unit :=
  b.writing .put key () fun t => (t.insert key value, ())

/-- Deletes a key, and says whether it was there. -/
def delete (b : Backend) (key : String) : Action Trouble Bool :=
  b.writing .delete key false fun t => (t.erase key, (t.get? key).isSome)

/-- A page of keys that begin with a stem. The cursor is read before anything else. -/
def list (b : Backend) (t : Table) (stem : String) (limit : Nat) (cursor : Option String) :
    Except Trouble Page :=
  b.through .list stem .empty <|
    match cursor with
    | none => .ok (t.page stem limit none)
    | some text =>
      match Cursor.decode text with
      | .ok last => .ok (t.page stem limit (some last))
      | .error f => .error (.badCursor f)

/-- Gets keys one after the other, leaving out those that are not there. -/
def getEach (b : Backend) (t : Table) : List String → Except Trouble (List (String × Bytes))
  | [] => .ok []
  | key :: rest => do
    let value ← b.get t key
    let found ← b.getEach t rest
    return match value with
      | some value => (key, value) :: found
      | none => found

/-- The keys that are there, with their values. -/
def getMany (b : Backend) (t : Table) (keys : List String) :
    Except Trouble (List (String × Bytes)) :=
  match b with
  | .direct => .ok (t.getMany keys)
  | .subject _ => b.getEach t keys

end Backend

end RecordBoard.Store
