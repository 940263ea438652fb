/-!
# Lists of entries in key order

Three things in this library are maps whose order shows: the fields of a JSON object, the table of
stored records and the counters of a summary. All three list their entries by the octets of their
keys, which is the order of `String`, so one small map serves them: a list of entries, kept strictly
ascending by `insert` and `erase`.

A key is looked up at its first entry, so the laws of looking up after a change hold for any list;
`IsSorted` is needed only where the order itself matters.

## Main results

* `Keyed.get?_insert`, `Keyed.get?_erase_self`, `Keyed.get?_erase_of_ne` — a change is seen at its
  key and nowhere else.
* `Keyed.IsSorted.insert`, `Keyed.IsSorted.erase` — a change keeps the order.
* `Keyed.isSorted_ofList` — building from any list gives an ordered one.
-/

namespace RecordBoard

/-- Entries under text keys. -/
abbrev Keyed (α : Type) := List (String × α)

namespace Keyed

variable {α : Type}

/-- The value under a key. -/
def get? (key : String) : Keyed α → Option α
  | [] => none
  | (k, v) :: rest => if k = key then some v else get? key rest

/-- The entries with `value` under `key`, in place of what was there. -/
def insert (key : String) (value : α) : Keyed α → Keyed α
  | [] => [(key, value)]
  | (k, v) :: rest =>
    if key < k then (key, value) :: (k, v) :: rest
    else if k = key then (key, value) :: rest
    else (k, v) :: insert key value rest

/-- The entries without the ones under `key`. -/
def erase (key : String) : Keyed α → Keyed α
  | [] => []
  | (k, v) :: rest => if k = key then erase key rest else (k, v) :: erase key rest

/-- The entries of a list, a later one taking the place of an earlier one under its key. -/
def ofList (l : List (String × α)) : Keyed α := l.foldl (fun m e => insert e.1 e.2 m) []

/-- The keys, in the order of their entries. -/
def keys (m : Keyed α) : List String := m.map (·.1)

/-- The keys ascend strictly. -/
def IsSorted (m : Keyed α) : Prop := m.Pairwise fun a b => a.1 < b.1

instance (m : Keyed α) : Decidable (IsSorted m) :=
  inferInstanceAs (Decidable (List.Pairwise _ _))

/-! ## Looking up after a change -/

@[simp] theorem get?_nil (key : String) : get? key ([] : Keyed α) = none := rfl

@[simp] theorem get?_insert_self (key : String) (value : α) (m : Keyed α) :
    get? key (insert key value m) = some value := by
  induction m with
  | nil => simp [insert, get?]
  | cons e rest ih =>
    obtain ⟨k, v⟩ := e
    simp only [insert]
    split
    · simp [get?]
    · split
      · simp [get?]
      · rename_i hne
        simp [get?, hne, ih]

theorem get?_insert_of_ne {key other : String} (h : other ≠ key) (value : α) (m : Keyed α) :
    get? other (insert key value m) = get? other m := by
  induction m with
  | nil => simp [insert, get?, Ne.symm h]
  | cons e rest ih =>
    obtain ⟨k, v⟩ := e
    simp only [insert]
    split
    · simp [get?, Ne.symm h]
    · split
      · rename_i hk
        simp [get?, hk, Ne.symm h]
      · simp only [get?, ih]

/-- A change is seen at its key and nowhere else. -/
theorem get?_insert (key other : String) (value : α) (m : Keyed α) :
    get? other (insert key value m) = if other = key then some value else get? other m := by
  split
  · rename_i h
    rw [h, get?_insert_self]
  · rename_i h
    exact get?_insert_of_ne h value m

@[simp] theorem get?_erase_self (key : String) (m : Keyed α) : get? key (erase key m) = none := by
  induction m with
  | nil => rfl
  | cons e rest ih =>
    obtain ⟨k, v⟩ := e
    by_cases h : k = key <;> simp [erase, h, get?, ih]

theorem get?_erase_of_ne {key other : String} (h : other ≠ key) (m : Keyed α) :
    get? other (erase key m) = get? other m := by
  induction m with
  | nil => rfl
  | cons e rest ih =>
    obtain ⟨k, v⟩ := e
    by_cases hk : k = key
    · simp [erase, hk, get?, Ne.symm h, ih]
    · simp [erase, hk, get?, ih]

/-! ## Order -/

theorem mem_insert {key : String} {value : α} {m : Keyed α} {e : String × α}
    (h : e ∈ insert key value m) :
    e = (key, value) ∨ e ∈ m := by
  induction m with
  | nil => simpa [insert] using h
  | cons e₀ rest ih =>
    obtain ⟨k, v⟩ := e₀
    simp only [insert] at h
    split at h
    · simpa using h
    · split at h
      · rcases List.mem_cons.1 h with h | h
        · exact .inl h
        · exact .inr (List.mem_cons_of_mem _ h)
      · rcases List.mem_cons.1 h with h | h
        · exact .inr (h ▸ List.mem_cons_self)
        · rcases ih h with h | h
          · exact .inl h
          · exact .inr (List.mem_cons_of_mem _ h)

theorem IsSorted.insert {m : Keyed α} (h : IsSorted m) (key : String) (value : α) :
    IsSorted (Keyed.insert key value m) := by
  induction m with
  | nil => simp [Keyed.insert, IsSorted]
  | cons e rest ih =>
    obtain ⟨k, v⟩ := e
    obtain ⟨hall, hrest⟩ := List.pairwise_cons.1 h
    simp only [Keyed.insert]
    split
    · rename_i hlt
      refine List.pairwise_cons.2 ⟨fun e he => ?_, h⟩
      rcases List.mem_cons.1 he with he | he
      · exact he ▸ hlt
      · exact String.lt_trans hlt (hall e he)
    · split
      · rename_i hk
        exact List.pairwise_cons.2 ⟨fun e he => hk ▸ hall e he, hrest⟩
      · rename_i hlt hk
        refine List.pairwise_cons.2 ⟨fun e he => ?_, ih hrest⟩
        rcases mem_insert he with he | he
        · exact he ▸ Std.lt_of_le_of_ne (String.not_lt.1 hlt) hk
        · exact hall e he

theorem erase_sublist (key : String) (m : Keyed α) : (erase key m).Sublist m := by
  induction m with
  | nil => exact List.Sublist.slnil
  | cons e rest ih =>
    obtain ⟨k, v⟩ := e
    simp only [erase]
    split
    · exact ih.cons _
    · exact ih.cons_cons _

theorem IsSorted.erase {m : Keyed α} (h : IsSorted m) (key : String) :
    IsSorted (Keyed.erase key m) :=
  List.Pairwise.sublist (erase_sublist key m) h

theorem isSorted_ofList (l : List (String × α)) : IsSorted (ofList l) := by
  have step : ∀ (l : List (String × α)) (m : Keyed α), IsSorted m →
      IsSorted (l.foldl (fun m e => Keyed.insert e.1 e.2 m) m) := by
    intro l
    induction l with
    | nil => intro m h; exact h
    | cons e rest ih => intro m h; exact ih _ (h.insert e.1 e.2)
  exact step l [] List.Pairwise.nil

end Keyed

end RecordBoard
