import RecordBoard.Keyed

/-!
# Entries and their keys

Looking up a key finds the first entry under it.  Where keys ascend there is only one, so an entry
of the list is what looking up its key finds, and a list that is in key order already is what is
built from it.

## Main results

* `ofList_of_isSorted` — entries in key order are left as they are.
* `mem_of_get?`, `get?_of_mem` — what is found is an entry, and in key order every entry is found.
* `get?_ofList_append_cons` — of a list in any order the last value under a key is found.
* `get?_ofList_of_mem` — of a list that gives no key twice every value is found.
-/

namespace RecordBoard.Keyed

variable {α : Type}

theorem insert_of_forall_lt {key : String} (value : α) {m : Keyed α} (h : ∀ e ∈ m, e.1 < key) :
    insert key value m = m ++ [(key, value)] := by
  induction m with
  | nil => rfl
  | cons e rest ih =>
    obtain ⟨k, v⟩ := e
    have hlt : k < key := h (k, v) List.mem_cons_self
    have hnot : ¬ key < k := String.lt_asymm hlt
    have hne : k ≠ key := by
      rintro rfl
      exact String.lt_irrefl k hlt
    simp only [insert, if_neg hnot, if_neg hne, List.cons_append]
    rw [ih fun e he => h e (List.mem_cons_of_mem _ he)]

/-- Entries in key order are left as they are. -/
theorem ofList_of_isSorted {l : List (String × α)} (h : IsSorted l) : ofList l = l := by
  have hfold : ∀ (back front : List (String × α)), IsSorted (front ++ back) →
      back.foldl (fun m e => insert e.1 e.2 m) front = front ++ back := by
    intro back
    induction back with
    | nil => intro front _; rw [List.append_nil]; rfl
    | cons e back ih =>
      intro front hsorted
      obtain ⟨hfront, hback, hacross⟩ := List.pairwise_append.1 hsorted
      rw [List.foldl_cons,
        insert_of_forall_lt e.2 fun e' he' => hacross e' he' e List.mem_cons_self]
      rw [ih (front ++ [e]) (by rwa [List.append_assoc, List.singleton_append]), List.append_assoc,
        List.singleton_append]
  exact hfold l [] h

theorem mem_ofList {l : List (String × α)} {e : String × α} (h : e ∈ ofList l) : e ∈ l := by
  have hfold : ∀ (l : List (String × α)) (m : Keyed α),
      e ∈ l.foldl (fun m e => insert e.1 e.2 m) m → e ∈ m ∨ e ∈ l := by
    intro l
    induction l with
    | nil => intro m hm; exact .inl hm
    | cons e' rest ih =>
      intro m hm
      rcases ih _ hm with hm | hrest
      · rcases mem_insert hm with rfl | hm
        · exact .inr List.mem_cons_self
        · exact .inl hm
      · exact .inr (List.mem_cons_of_mem _ hrest)
  rcases hfold l [] h with hnil | hl
  · cases hnil
  · exact hl

theorem mem_of_get? {key : String} {value : α} {m : Keyed α} (h : get? key m = some value) :
    (key, value) ∈ m := by
  induction m with
  | nil => cases h
  | cons e rest ih =>
    obtain ⟨k, v⟩ := e
    rw [get?] at h
    split at h
    · cases h
      subst ‹k = key›
      exact List.mem_cons_self
    · exact List.mem_cons_of_mem _ (ih h)

theorem get?_of_mem {key : String} {value : α} {m : Keyed α} (hm : IsSorted m)
    (h : (key, value) ∈ m) : get? key m = some value := by
  induction m with
  | nil => cases h
  | cons e rest ih =>
    obtain ⟨k, v⟩ := e
    obtain ⟨hall, hrest⟩ := List.pairwise_cons.1 hm
    rw [get?]
    rcases List.mem_cons.1 h with heq | hmem
    · cases heq
      rw [if_pos rfl]
    · have hlt : k < key := hall (key, value) hmem
      have hne : k ≠ key := by
        rintro rfl
        exact String.lt_irrefl k hlt
      rw [if_neg hne]
      exact ih hrest hmem

theorem get?_eq_none_of_lt {key : String} {m : Keyed α} (h : ∀ e ∈ m, key < e.1) :
    get? key m = none := by
  cases hget : get? key m with
  | none => rfl
  | some value => exact absurd (h _ (mem_of_get? hget)) (String.lt_irrefl key)

/-- Entries in key order are told apart by looking up keys. -/
theorem eq_of_get?_eq {m m' : Keyed α} (hm : IsSorted m) (hm' : IsSorted m')
    (h : ∀ key, get? key m = get? key m') : m = m' := by
  induction m generalizing m' with
  | nil =>
    cases m' with
    | nil => rfl
    | cons e rest => simpa [get?] using h e.1
  | cons e rest ih =>
    cases m' with
    | nil => simpa [get?] using h e.1
    | cons e' rest' =>
      obtain ⟨hall, hrest⟩ := List.pairwise_cons.1 hm
      obtain ⟨hall', hrest'⟩ := List.pairwise_cons.1 hm'
      have hfirst : get? e.1 (e :: rest) = some e.2 := if_pos rfl
      have hfirst' : get? e'.1 (e' :: rest') = some e'.2 := if_pos rfl
      have hnot : ¬ e.1 < e'.1 := by
        intro hlt
        rw [h, get?_eq_none_of_lt (List.forall_mem_cons.2
          ⟨hlt, fun d hd => String.lt_trans hlt (hall' d hd)⟩)] at hfirst
        cases hfirst
      have hnot' : ¬ e'.1 < e.1 := by
        intro hlt
        rw [← h, get?_eq_none_of_lt (List.forall_mem_cons.2
          ⟨hlt, fun d hd => String.lt_trans hlt (hall d hd)⟩)] at hfirst'
        cases hfirst'
      have hkey : e.1 = e'.1 := String.le_antisymm (String.not_lt.1 hnot') (String.not_lt.1 hnot)
      have hvalue : e.2 = e'.2 := by
        rw [h, hkey, hfirst'] at hfirst
        exact (Option.some.inj hfirst).symm
      have heq : e = e' := Prod.ext hkey hvalue
      subst heq
      refine congrArg (e :: ·) (ih hrest hrest' fun key => ?_)
      by_cases hother : e.1 = key
      · rw [← hother, get?_eq_none_of_lt hall, get?_eq_none_of_lt hall']
      · simpa [get?, hother] using h key

/-- A key is there if something is found under it. -/
theorem isSome_get?_iff {key : String} {m : Keyed α} :
    (get? key m).isSome = true ↔ key ∈ keys m := by
  induction m with
  | nil => simp [keys]
  | cons e rest ih =>
    obtain ⟨k, v⟩ := e
    rw [get?, keys, List.map_cons, List.mem_cons]
    by_cases hk : k = key
    · simp [hk]
    · rw [if_neg hk, ih]
      simp [keys, Ne.symm hk]

/-- Of a list in any order the last value under a key is found. -/
theorem get?_ofList_append_cons {key : String} {value : α} (front : List (String × α))
    {back : List (String × α)} (h : ∀ e ∈ back, e.1 ≠ key) :
    get? key (ofList (front ++ (key, value) :: back)) = some value := by
  have hfold : ∀ (back : List (String × α)) (m : Keyed α), (∀ e ∈ back, e.1 ≠ key) →
      get? key (back.foldl (fun m e => insert e.1 e.2 m) m) = get? key m := by
    intro back
    induction back with
    | nil => intro m _; rfl
    | cons e back ih =>
      intro m hback
      obtain ⟨he, hback⟩ := List.forall_mem_cons.1 hback
      rw [List.foldl_cons, ih _ hback, get?_insert_of_ne (Ne.symm he)]
  rw [ofList, List.foldl_append, List.foldl_cons, hfold back _ h, get?_insert_self]

/-- If no key is given twice, every value is found. -/
theorem get?_ofList_of_mem {key : String} {value : α} {l : List (String × α)} (hl : (keys l).Nodup)
    (h : (key, value) ∈ l) : get? key (ofList l) = some value := by
  obtain ⟨front, back, rfl⟩ := List.append_of_mem h
  rw [keys, List.map_append, List.map_cons] at hl
  have hback : key ∉ keys back := (List.nodup_cons.1 (List.nodup_append.1 hl).2.1).1
  refine get?_ofList_append_cons front fun e he heq => hback ?_
  rw [← heq]
  exact List.mem_map_of_mem he

/-- What is given for one key has no part in what is found under another. -/
theorem get?_ofList_replace {key other : String} (h : other ≠ key) (front : List (String × α))
    (v w : α) (back : List (String × α)) :
    get? other (ofList (front ++ (key, v) :: back)) =
      get? other (ofList (front ++ (key, w) :: back)) := by
  have hfold : ∀ (back : List (String × α)) {m m' : Keyed α}, get? other m = get? other m' →
      get? other (back.foldl (fun m e => insert e.1 e.2 m) m) =
        get? other (back.foldl (fun m e => insert e.1 e.2 m) m') := by
    intro back
    induction back with
    | nil => exact id
    | cons e back ih =>
      intro m m' hm
      refine ih ?_
      rw [get?_insert, get?_insert, hm]
  rw [ofList, ofList, List.foldl_append, List.foldl_append]
  refine hfold back ?_
  rw [get?_insert_of_ne h, get?_insert_of_ne h]

theorem get?_ofList_eq_none {key : String} {l : List (String × α)} (h : ∀ e ∈ l, e.1 ≠ key) :
    get? key (ofList l) = none := by
  cases hget : get? key (ofList l) with
  | none => rfl
  | some value => exact absurd rfl (h _ (mem_ofList (mem_of_get? hget)))

end RecordBoard.Keyed
