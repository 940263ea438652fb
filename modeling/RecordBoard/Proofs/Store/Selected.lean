import RecordBoard.Proofs.Store.Cursor

/-!
# A page without walking

A listing walks over the keys in their order, and what it takes and where it stops depends on that
order.  What a page is can be said without it: of the keys in the table that begin with the stem and
lie behind the place to go on from, in the order of their octets, it shows as many of the first as
there is room for, and it has a cursor if it shows any of them and not all.

The place to go on from is any key.  It need not be in the table, nor begin with the stem, nor lie
where the keys with the stem are, and any text that is read as the key is a cursor of it.

## Main definitions

* `Table.Selects` — the keys that a listing is about.
* `Page.ShowsFirst` — a page shows the first of some keys.
* `Resumes` — the place to go on from that a cursor stands for.

## Main results

* `Table.selects_run` — what a listing takes are the keys that it is about.
* `list_shows_first_selected` — a page shows the first of these, and there is one unless the cursor
  cannot be read.
-/

namespace RecordBoard.Store

/-- The keys in a table that begin with a stem and lie behind the place to go on from. -/
structure Table.Selects (stem : String) (after : Option String) (t : Table) (keys : List String) :
    Prop where
  /-- They are in the order of their octets, none of them twice. -/
  sorted : keys.Pairwise fun a b => Utf8.encode a < Utf8.encode b
  /-- Which keys they are. -/
  mem_iff : ∀ key, key ∈ keys ↔
    (t.get? key).isSome ∧ Utf8.encode stem <+: Utf8.encode key ∧
      ∀ last, after = some last → Utf8.encode last < Utf8.encode key

/-- A page shows at most so many of some keys, from the front. -/
structure Page.ShowsFirst (limit : Nat) (keys : List String) (p : Page) : Prop where
  /-- It shows the first ones. -/
  shown : p.keys = keys.take limit
  /-- Its cursor is that of the last one if it shows any and others are left, and otherwise it has
  none. -/
  cursor : ∀ c, p.cursor = some c ↔
    0 < limit ∧ limit < keys.length ∧ ∃ last, p.keys.getLast? = some last ∧ c = Cursor.encode last

/-- The place to go on from that a cursor stands for. -/
inductive Resumes : Option String → Option String → Prop
  /-- Without a cursor a listing begins at the front. -/
  | front : Resumes none none
  /-- With one it goes on from behind a key. -/
  | behind {text last : String} (h : Cursor.decode text = .ok last) :
    Resumes (some text) (some last)

theorem resumes_encode (after : Option String) : Resumes (after.map Cursor.encode) after := by
  cases after with
  | none => exact .front
  | some last => exact .behind (Cursor.decode_encode last)

/-- A cursor that stands for no place to go on from cannot be read. -/
theorem resumes_or_fault (cursor : Option String) :
    (∃ after, Resumes cursor after) ∨ ∃ text f,
    cursor = some text ∧ Cursor.decode text = .error f := by
  cases cursor with
  | none => exact .inl ⟨none, .front⟩
  | some text =>
    cases hdecode : Cursor.decode text with
    | ok last => exact .inl ⟨some last, .behind hdecode⟩
    | error f => exact .inr ⟨text, f, rfl, hdecode⟩

namespace Table

theorem mem_keys_iff {key : String} {t : Table} : key ∈ t.keys ↔ (t.get? key).isSome = true :=
  Keyed.isSome_get?_iff.symm

/-- What a listing takes are the keys that it is about. -/
theorem selects_run (stem : String) (after : Option String) (t : Table) :
    t.Selects stem after (t.run stem after) := by
  constructor
  · exact (t.run_sorted stem after).imp Utf8.encode_lt_encode
  · intro key
    rw [mem_run, mem_keys_iff, Utf8.encode_isPrefix_encode_iff]
    simp only [Utf8.encode_lt_encode_iff]

/-- A page shows the first of the keys that the listing takes. -/
theorem page_showsFirst (stem : String) (limit : Nat) (after : Option String) (t : Table) :
    (t.page stem limit after).ShowsFirst limit (t.run stem after) := by
  constructor
  · rfl
  · intro c
    simp only [page]
    by_cases hmore : limit < (t.run stem after).length
    · rw [if_pos hmore, Option.map_eq_some_iff]
      constructor
      · rintro ⟨last, hlast, rfl⟩
        -- A page without room shows no last key.
        have hlimit : 0 < limit := by
          apply Nat.pos_of_ne_zero
          rintro rfl
          cases hlast
        exact ⟨hlimit, hmore, last, hlast, rfl⟩
      · rintro ⟨-, -, last, hlast, rfl⟩
        exact ⟨last, hlast, rfl⟩
    · rw [if_neg hmore]
      constructor
      · intro h
        cases h
      · rintro ⟨-, hmore', -⟩
        exact absurd hmore' hmore

theorem list_of_resumes {cursor after : Option String} (h : Resumes cursor after) (t : Table)
    (stem : String) (limit : Nat) :
    Backend.direct.list t stem limit cursor = .ok (t.page stem limit after) := by
  cases h with
  | front => rfl
  | behind h => exact list_of_decode h t stem limit

end Table

/--
A cursor that was made of a key stands for the place behind that key.  Whatever the table, the stem
and the room, a listing from the place that its cursor stands for shows the first of the keys that
it is about.  It fails only if the cursor cannot be read.
-/
theorem list_shows_first_selected :
    (∀ after, Resumes (after.map Cursor.encode) after) ∧
      (∀ cursor after, Resumes cursor after → ∀ (t : Table) (stem : String) (limit : Nat),
        ∃ keys page, t.Selects stem after keys ∧
          Backend.direct.list t stem limit cursor = .ok page ∧ page.ShowsFirst limit keys) ∧
      ∀ (t : Table) (stem : String) (limit : Nat) (cursor : Option String),
        (∃ trouble, Backend.direct.list t stem limit cursor = .error trouble) ↔
          ∃ text f, cursor = some text ∧ Cursor.decode text = .error f := by
  refine ⟨resumes_encode, ?_, ?_⟩
  · intro cursor after h t stem limit
    exact ⟨_, _, t.selects_run stem after, t.list_of_resumes h stem limit,
      t.page_showsFirst stem limit after⟩
  · intro t stem limit cursor
    constructor
    · rintro ⟨trouble, htrouble⟩
      rcases resumes_or_fault cursor with ⟨after, hafter⟩ | hfault
      · rw [t.list_of_resumes hafter stem limit] at htrouble
        cases htrouble
      · exact hfault
    · rintro ⟨text, f, rfl, hf⟩
      exact ⟨_, t.list_of_badCursor hf stem limit⟩

end RecordBoard.Store
