import RecordBoard.Proofs.Store.Records

/-!
# Steps about some keys

A step on a table may look at what is under some keys, and may change that, and nothing else.  Then
it is enough to know the table at these keys to say what the step comes to, and at all other keys
the table stays as it was.  Two such steps about different keys do not see each other, so they can
be taken in either order.

That a step is about some keys is shown along the way it is made: reading a key, writing it and
deleting it are, and so is one such step after another.

## Main definitions

* `LocalTo` — a step that is about some keys and no others.

## Main results

* `Table.ext_get?` — tables are told apart by looking up keys.
* `localTo_upsert`, `LocalTo.reading`, `LocalTo.andThen` — how steps about some keys are made.
* `LocalTo.commute` — steps about different keys can be taken in either order.
-/

namespace RecordBoard.Store

/-- Tables are told apart by looking up keys. -/
theorem Table.ext_get? {t t' : Table} (h : ∀ key, t.get? key = t'.get? key) : t = t' := by
  obtain ⟨entries, hsorted⟩ := t
  obtain ⟨entries', hsorted'⟩ := t'
  have heq : entries = entries' := Keyed.eq_of_get?_eq hsorted hsorted' h
  subst heq
  rfl

/-- Two tables are alike under some keys. -/
def AlikeAt (keys : List String) (t t' : Table) : Prop := ∀ key ∈ keys, t.get? key = t'.get? key

/-- A step looks at nothing but what is under some keys, and changes nothing else. -/
structure LocalTo {α : Type} (keys : List String) (step : Table → Table × α) : Prop where
  /-- Under all other keys the table stays as it was. -/
  frame : ∀ t, ∀ key ∉ keys, (step t).1.get? key = t.get? key
  /-- On tables that are alike under the keys it comes to the same. -/
  result : ∀ {t t'}, AlikeAt keys t t' → (step t).2 = (step t').2
  /-- It leaves them alike. -/
  alike : ∀ {t t'}, AlikeAt keys t t' → AlikeAt keys (step t).1 (step t').1

namespace LocalTo

variable {α β : Type} {keys : List String}

/-! ## Two orders -/

section Commute

variable {keys' : List String} {f : Table → Table × α} {g : Table → Table × β} (hf : LocalTo keys f)
  (hg : LocalTo keys' g) (hdisjoint : ∀ key ∈ keys, key ∉ keys')

include hf hg hdisjoint

/-- A step does not see one about other keys in front of it. -/
theorem result_behind (t : Table) : (g (f t).1).2 = (g t).2 := by
  refine hg.result fun key hkey => hf.frame t key ?_
  intro hmem
  exact hdisjoint key hmem hkey

/-- Steps about different keys can be taken in either order. -/
theorem commute (t : Table) : (g (f t).1).1 = (f (g t).1).1 := by
  refine Table.ext_get? fun key => ?_
  by_cases hkey : key ∈ keys
  · have hother := hdisjoint key hkey
    have halike : AlikeAt keys (g t).1 t := fun k hk => hg.frame t k (hdisjoint k hk)
    rw [hg.frame _ key hother, hf.alike halike key hkey]
  · by_cases hkey' : key ∈ keys'
    · have halike : AlikeAt keys' (f t).1 t :=
        fun k hk => hf.frame t k fun hmem => hdisjoint k hmem hk
      rw [hg.alike halike key hkey', hf.frame _ key hkey]
    · rw [hg.frame _ key hkey', hf.frame _ key hkey, hf.frame _ key hkey, hg.frame _ key hkey']

end Commute

/-! ## How steps are made -/

/-- A step that does nothing. -/
theorem pure (a : α) : LocalTo keys fun t => (t, a) where
  frame _ _ _ := rfl
  result _ := rfl
  alike h := h

theorem insert {key : String} (hkey : key ∈ keys) (value : Bytes) (a : α) :
    LocalTo keys fun t => (t.insert key value, a) where
  frame t other hother := by
    have hne : other ≠ key := by
      rintro rfl
      exact hother hkey
    rw [Table.get?_insert, if_neg hne]
  result _ := rfl
  alike {t t'} h other hother := by
    rw [Table.get?_insert, Table.get?_insert, h other hother]

theorem erase {key : String} (hkey : key ∈ keys) (a : α) :
    LocalTo keys fun t => (t.erase key, a) where
  frame t other hother := by
    have hne : other ≠ key := by
      rintro rfl
      exact hother hkey
    rw [Table.get?_erase, if_neg hne]
  result _ := rfl
  alike {t t'} h other hother := by
    rw [Table.get?_erase, Table.get?_erase, h other hother]

/-- What a step does may depend on what is read under one of the keys. -/
theorem reading {key : String} (hkey : key ∈ keys) {view : Table → β} (hview : ∀ {t t' : Table},
      t.get? key = t'.get? key → view t = view t') {f : β → Table → Table × α}
    (h : ∀ t, LocalTo keys (f (view t))) : LocalTo keys fun t => f (view t) t where
  frame t := (h t).frame t
  result {t t'} halike := by
    rw [hview (halike key hkey)]
    exact (h t').result halike
  alike {t t'} halike := by
    rw [hview (halike key hkey)]
    exact (h t').alike halike

/-- One step after another, which may depend on what the first one came to. -/
theorem andThen {f : Table → Table × β} {g : β → Table → Table × α} (hf : LocalTo keys f)
    (hg : ∀ b, LocalTo keys (g b)) : LocalTo keys fun t => g (f t).2 (f t).1 where
  frame t key hkey := by rw [(hg _).frame _ key hkey, hf.frame t key hkey]
  result {t t'} halike := by
    rw [hf.result halike]
    exact (hg _).result (hf.alike halike)
  alike {t t'} halike := by
    rw [hf.result halike]
    exact (hg _).alike (hf.alike halike)

/-- What a step comes to may be told in another way. -/
theorem map {step : Table → Table × α} (h : LocalTo keys step) (f : α → β) :
    LocalTo keys fun t => ((step t).1, f (step t).2) :=
  h.andThen fun a => pure (f a)

/-- One action after another, up to the first error. -/
theorem bind {ε : Type} {action : Action ε α} {next : α → Action ε β} (h : LocalTo keys action)
    (hnext : ∀ a, LocalTo keys (next a)) : LocalTo keys (action >>= next) := by
  rw [Action.bind_eq_following]
  refine h.andThen fun came => ?_
  cases came with
  | ok a => exact hnext a
  | error e => exact pure (Except.error e)

/-- A step about some keys is one about more keys. -/
theorem mono {keys' : List String} {step : Table → Table × α} (h : LocalTo keys step)
    (hkeys : ∀ key ∈ keys, key ∈ keys') : LocalTo keys' step where
  frame t key hkey := h.frame t key fun hmem => hkey (hkeys key hmem)
  result halike := h.result fun key hkey => halike key (hkeys key hkey)
  alike {t t'} halike key hkey := by
    by_cases hmem : key ∈ keys
    · exact h.alike (fun k hk => halike k (hkeys k hk)) key hmem
    · rw [h.frame t key hmem, h.frame t' key hmem, halike key hkey]

end LocalTo

/-! ## Calls on a store

Whether a call reaches the table depends on its key, and not on the table; so a store with faults is
as local as one without.
-/

section Calls

variable (b : Backend)

theorem getRecord_congr {key : String} {t t' : Table} (h : t.get? key = t'.get? key) :
    b.getRecord t key = b.getRecord t' key := by
  unfold Backend.getRecord Backend.get
  rw [h]

/-- Looking at a record is about its key. -/
theorem localTo_getRecord {ε : Type} (key : String)
    (f : Except Trouble (Option Record) → Except ε (Option Record)) :
    LocalTo [key] (Action.reading fun t => f (b.getRecord t key)) :=
  LocalTo.reading (f := fun found t => (t, f found)) List.mem_cons_self (getRecord_congr b) fun _ =>
    .pure _

/-- Putting a value is about its key. -/
theorem localTo_put (key : String) (value : Bytes) : LocalTo [key] (b.put key value) := by
  unfold Backend.put Backend.writing
  split
  · exact .pure _
  · exact .insert List.mem_cons_self value (Except.ok ())

/-- Deleting is about the key that is deleted. -/
theorem localTo_delete (key : String) : LocalTo [key] (b.delete key) := by
  unfold Backend.delete Backend.writing
  split
  · exact .pure _
  · exact LocalTo.reading (f := fun found t => (t.erase key, Except.ok found)) List.mem_cons_self
      (congrArg Option.isSome) fun t => .erase List.mem_cons_self _

/-- Writing a record is about its key. -/
theorem localTo_upsert (key : String) (record : Record) (now : UInt64) :
    LocalTo [key] (b.upsert key record now) :=
  (localTo_getRecord b key id).bind fun _ => (localTo_put b key _).bind fun _ => .pure _

end Calls

end RecordBoard.Store
