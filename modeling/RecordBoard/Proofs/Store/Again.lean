import Mathlib.Data.List.Forall2
import RecordBoard.Proofs.Store.Local
import RecordBoard.Proofs.Store.Moments

/-!
# Writing records again

A batch of records is written at one clock reading.  Under a key its records take each other's
place, and what is left is the last of them, with stamps that the first of them got: the moment of
the first write is handed on from one to the next, and the moment of the last write is that of the
batch and cannot grow within it.

So if the batch is written again, at another clock reading, the same record is left.  It finds the
moment of the first write in the table and takes it over, whichever record it came from the first
time; only the moment of the last write moves on, to the later of the one it finds and the clock.

All this rests on what is read in place of a record being what was written there.  A moment of the
first write is handed on as it is if it is read where it was written, as every value without doubles
is; the moment of the last write has gone through a double, which holds it exactly up to `2 ^ 53`.

## Main definitions

* `Record.mark` — a record with given stamps.
* `Record.SameButStamps` — two records that become the same if they get the same stamps.
* `batch` — the writes of records at one clock reading.
* `StoresUnder` — a session stores a record under a key.
* `MovedOn` — two tables differ in some moments of the last write, and in nothing else.

## Main results

* `Record.firstWritten_of_mark`, `Record.stampFor_of_mark` — what a record gets that takes the place
  of a marked one.
* `get?_batch` — what a batch leaves under a key.
* `movedOn_batch_again` — what changes if it is written again.
-/

namespace RecordBoard

open Json (Value)

-- Powers are those of the core library, whatever else an importing module knows.
attribute [local instance (2000)] instPowNat

/-! ## Records with given stamps -/

namespace Record

/-- Records in order are told apart by their fields. -/
theorem ext_get? {r s : Record} (hr : r.toValue.IsOrdered) (hs : s.toValue.IsOrdered)
    (h : ∀ field, r.get? field = s.get? field) : r = s := by
  obtain ⟨fields⟩ := r
  obtain ⟨fields'⟩ := s
  exact congrArg Record.mk (Keyed.eq_of_get?_eq hr.1 hs.1 h)

theorem isOrdered_set {r : Record} {v : Value} (field : String) (hr : r.toValue.IsOrdered)
    (hv : v.IsOrdered) :
    (r.set field v).toValue.IsOrdered := by
  refine ⟨hr.1.insert field v, Value.fieldsOrdered_iff.2 fun e he => ?_⟩
  rcases Keyed.mem_insert he with rfl | he
  · exact hv
  · exact Value.fieldsOrdered_iff.1 hr.2 e he

/-- The record with given stamps. -/
def mark (key : String) (created : Value) (updated : UInt64) (r : Record) : Record :=
  ((r.set "key" (.string key)).set "created_at" created).set "updated_at" (.ofWord updated)

theorem stamp_eq_mark (key : String) (previous : Option Record) (now : UInt64) (r : Record) :
    r.stamp key previous now = r.mark key (firstWritten previous now r) (stampFor previous now) :=
  rfl

theorem get?_mark (key : String) (created : Value) (updated : UInt64) (r : Record)
    (field : String) :
    (r.mark key created updated).get? field =
      if field = "updated_at" then some (.ofWord updated)
      else if field = "created_at" then some created
      else if field = "key" then some (.string key)
      else r.get? field := by
  simp only [mark, get?_set]

/-- Two records agree in all fields but the stamps. -/
def SameButStamps (r s : Record) : Prop :=
  ∀ field, field ≠ "updated_at" → field ≠ "created_at" → field ≠ "key" → r.get? field = s.get? field

section Mark

variable (key : String) {created : Value} {r : Record} (hr : r.toValue.IsOrdered)
  (hcreated : created.IsOrdered)

include hr hcreated

theorem isOrdered_mark (updated : UInt64) : (r.mark key created updated).toValue.IsOrdered := by
  have hkey := isOrdered_set "key" hr (within_string key 0).ordered
  exact isOrdered_set "updated_at" (isOrdered_set "created_at" hkey hcreated)
    (within_ofWord updated 0).ordered

/-- Records that agree but for the stamps are the same with the same stamps. -/
theorem mark_of_sameButStamps {s : Record} (hs : s.toValue.IsOrdered) (h : r.SameButStamps s)
    (updated : UInt64) :
    r.mark key created updated = s.mark key created updated := by
  refine ext_get? (isOrdered_mark key hr hcreated updated) (isOrdered_mark key hs hcreated updated)
    fun field => ?_
  rw [get?_mark, get?_mark]
  split
  · rfl
  split
  · rfl
  split
  · rfl
  · exact h field ‹_› ‹_› ‹_›

/-- The moment of the last write can be set behind the others. -/
theorem set_mark (updated n : UInt64) :
    (r.mark key created updated).set "updated_at" (.ofWord n) = r.mark key created n := by
  refine ext_get?
    (isOrdered_set _ (isOrdered_mark key hr hcreated updated) (within_ofWord n 0).ordered)
    (isOrdered_mark key hr hcreated n) fun field => ?_
  rw [get?_set, get?_mark, get?_mark]
  split <;> rfl

end Mark

section Replaced

variable {key : String} {created : Value} {updated : UInt64} (r : Record)

/-- A record that takes the place of a marked one gets its moment of the first write, -/
theorem firstWritten_of_mark (hreread : created.reread = created) (hnull : created.isNull = false)
    (now : UInt64) (s : Record) :
    firstWritten (some (r.mark key created updated).reread) now s = created := by
  refine firstWritten_of_previous ?_ now
  rw [present?_eq_some_iff, get?_reread, get?_mark, if_neg (by decide), if_pos rfl, Option.map_some,
    hreread]
  exact ⟨rfl, hnull⟩

/-- and the later of its moment of the last write and the clock. -/
theorem stampFor_of_mark (hexact : updated.toNat ≤ 2 ^ (53 : Nat)) (now : UInt64) :
    stampFor (some (r.mark key created updated).reread) now = max now updated := by
  have hlast : (r.mark key created updated).reread.get? "updated_at" = some (.ofWord updated) := by
    rw [get?_reread, get?_mark, if_pos rfl, Option.map_some, reread_ofWord]
  rw [stampFor, floor_of_updatedAt hlast hexact]

end Replaced

end Record

namespace Store

/-! ## Batches -/

/-- The writes of records at one clock reading. -/
def batch (now : UInt64) (drafts : List (String × Record)) : List Step :=
  drafts.map fun draft => .upsert draft.1 draft.2 now

/-- The records of a batch that go under a key. -/
def own (key : String) (drafts : List (String × Record)) : List Record :=
  (drafts.filter fun draft => draft.1 = key).map (·.2)

theorem own_cons_self (key : String) (r : Record) (rest : List (String × Record)) :
    own key ((key, r) :: rest) = r :: own key rest := by
  simp [own]

theorem own_cons_of_ne {key : String} {draft : String × Record} (h : draft.1 ≠ key)
    (rest : List (String × Record)) : own key (draft :: rest) = own key rest := by
  simp [own, h]

theorem exists_of_mem_own {key : String} {drafts : List (String × Record)} {r : Record}
    (h : r ∈ own key drafts) :
    (key, r) ∈ drafts := by
  obtain ⟨draft, hdraft, rfl⟩ := List.mem_map.1 h
  obtain ⟨hmem, hkey⟩ := List.mem_filter.1 hdraft
  exact of_decide_eq_true hkey ▸ hmem

/-- The writes of records under one key. -/
def inPlace (key : String) (now : UInt64) (records : List Record) : List Step :=
  records.map fun r => .upsert key r now

/-- A write at one clock reading, as a step that is about its key. -/
theorem localTo_perform (key : String) (r : Record) (now : UInt64) :
    LocalTo [key] fun t => (((Step.upsert key r now).perform .direct t).1, ()) :=
  (localTo_upsert .direct key r now).map fun _ => ()

/-- Under a key a batch leaves what its own records leave there. -/
theorem get?_batch_eq_own {key : String} (now : UInt64) {t t' : Table}
    (h : t.get? key = t'.get? key) (drafts : List (String × Record)) :
    (session .direct t (batch now drafts)).1.get? key =
      (session .direct t' (inPlace key now (own key drafts))).1.get? key := by
  induction drafts generalizing t t' with
  | nil => exact h
  | cons draft rest ih =>
    obtain ⟨other, r⟩ := draft
    by_cases hother : other = key
    · subst hother
      rw [own_cons_self]
      exact ih
        ((localTo_perform other r now).alike (by simpa [AlikeAt] using h) other List.mem_cons_self)
    · rw [own_cons_of_ne hother]
      refine ih (Eq.trans ?_ h)
      exact (localTo_perform other r now).frame t key (by simpa using Ne.symm hother)

/-! ## What is left under a key -/

section InPlace

variable {key : String} (now : UInt64)

/-- Where the record in place cannot be read, nothing is written. -/
theorem perform_of_unreadable {t : Table} {e : Trouble}
    (h : Backend.direct.getRecord t key = .error e) (other : String) (r : Record) :
    ((Step.upsert other r now).perform .direct t).1.get? key = t.get? key := by
  rcases perform_upsert t other r now with ⟨previous, hprevious, hperform⟩ | ⟨_, -, hperform⟩
  · have hne : key ≠ other := by
      rintro rfl
      rw [h] at hprevious
      cases hprevious
    rw [hperform, Table.get?_insert, if_neg hne]
  · rw [hperform]

/-- The first record of a batch is stamped against what is in its place. -/
theorem perform_inPlace {t : Table} {previous : Option Record}
    (hprevious : Backend.direct.getRecord t key = .ok previous) (r : Record) :
    ((Step.upsert key r now).perform .direct t).1.get? key =
      some (r.stamp key previous now).encode := by
  rcases perform_upsert t key r now with ⟨found, hfound, hperform⟩ | ⟨e, he, -⟩
  · rw [hprevious] at hfound
    cases hfound
    rw [hperform, Table.get?_insert, if_pos rfl]
  · rw [hprevious] at he
    cases he

/-- Records that take the place of a marked one, at a clock that is not later, leave the last of
them with the same marks, if each of them can be read that another one replaces. -/
theorem get?_inPlace_of_mark {created : Value} {updated : UInt64}
    (hcreated : created.Within (Json.maxDepth - 1)) (hreread : created.reread = created)
    (hnull : created.isNull = false) (hexact : updated.toNat ≤ 2 ^ (53 : Nat))
    (hnow : now ≤ updated) {t : Table} {r : Record}
    (h : t.get? key = some (r.mark key created updated).encode) {records : List Record}
    (hreadable : (r :: records).Pairwise fun s _ => s.toValue.Within Json.maxDepth) :
    (session .direct t (inPlace key now records)).1.get? key =
      some ((records.getLastD r).mark key created updated).encode := by
  induction records generalizing t r with
  | nil => exact h
  | cons s rest ih =>
    obtain ⟨hr, hrest⟩ := List.pairwise_cons.1 hreadable
    have hwithin : (r.mark key created updated).toValue.Within Json.maxDepth :=
      Record.within_set "updated_at"
        (Record.within_set "created_at" (Record.within_set "key" (hr s List.mem_cons_self)
          (Record.within_string key _)) hcreated) (Record.within_ofWord updated _)
    have hfound := getRecord_of_decode h (Record.decode_encode hwithin)
    have hwritten := perform_inPlace now hfound s
    have hmax : max now updated = updated := if_pos hnow
    rw [Record.stamp_eq_mark, Record.firstWritten_of_mark r hreread hnull,
      Record.stampFor_of_mark r hexact, hmax] at hwritten
    rw [List.getLastD_cons]
    exact ih hwritten hrest

end InPlace

theorem toNat_max_le {m n : UInt64} {bound : Nat} (hm : m.toNat ≤ bound) (hn : n.toNat ≤ bound) :
    (max m n).toNat ≤ bound := by
  show (if m ≤ n then n else m).toNat ≤ bound
  split
  · exact hn
  · exact hm

/-- What is found where a record in order was written. -/
theorem eq_reread_of_getRecord {t : Table} {key : String} {stored : Record}
    {previous : Option Record} (hstored : t.get? key = some stored.encode)
    (hordered : stored.toValue.IsOrdered) (h : Backend.direct.getRecord t key = .ok previous) :
    previous = some stored.reread := by
  cases previous with
  | none =>
    rw [absent_of_getRecord h] at hstored
    cases hstored
  | some p =>
    obtain ⟨value, hvalue, hdecode⟩ := exists_value_of_getRecord h
    rw [hstored] at hvalue
    cases hvalue
    rw [Record.eq_reread_of_decode hordered hdecode]

/-- Each draft of a list can be read once it is written, if there is another one behind it. -/
def ReadableInFront (drafts : List (String × Record)) : Prop :=
  drafts.Pairwise fun draft _ => draft.2.toValue.Within Json.maxDepth

/-- What a record in place and a record that is written in its place hand on without a loss. -/
structure HandsOn (previous : Option Record) (now : UInt64) (r : Record) : Prop where
  /-- The moment of the first write can be read where it is written, -/
  within : (Record.firstWritten previous now r).Within (Json.maxDepth - 1)
  /-- and is read as itself. -/
  reread : (Record.firstWritten previous now r).reread = Record.firstWritten previous now r
  /-- Doubles hold the moment of the last write. -/
  exact_le : (Record.stampFor previous now).toNat ≤ 2 ^ (53 : Nat)

/-- A marked record hands its marks on to whatever takes its place. -/
theorem handsOn_of_mark {key : String} {created : Value} {updated again : UInt64}
    (hwithin : created.Within (Json.maxDepth - 1)) (hreread : created.reread = created)
    (hnull : created.isNull = false) (hexact : updated.toNat ≤ 2 ^ (53 : Nat))
    (hagain : again.toNat ≤ 2 ^ (53 : Nat)) (r s : Record) :
    HandsOn (some (r.mark key created updated).reread) again s := by
  refine ⟨?_, ?_, ?_⟩
  · rw [Record.firstWritten_of_mark r hreread hnull]
    exact hwithin
  · rw [Record.firstWritten_of_mark r hreread hnull]
    exact hreread
  · rw [Record.stampFor_of_mark r hexact]
    exact toNat_max_le hagain hexact

section Batch

variable {key : String} {now : UInt64} {t : Table} {previous : Option Record}
  {drafts : List (String × Record)}
  {first : Record} {rest : List Record}

/-- What a batch leaves under a key: the last of its records there, with the stamps of the first. -/
theorem get?_batch (hprevious : Backend.direct.getRecord t key = .ok previous)
    (hown : own key drafts = first :: rest) (hands : HandsOn previous now first)
    (hreadable : ReadableInFront drafts) :
    (session .direct t (batch now drafts)).1.get? key =
      some ((rest.getLastD first).mark key (Record.firstWritten previous now first)
        (Record.stampFor previous now)).encode := by
  have hrecords : (first :: rest).Pairwise fun s _ => s.toValue.Within Json.maxDepth :=
    hown ▸ List.pairwise_map.2 (hreadable.filter _)
  have hwritten := perform_inPlace now hprevious first
  rw [Record.stamp_eq_mark] at hwritten
  rw [get?_batch_eq_own now rfl, hown]
  exact get?_inPlace_of_mark now hands.within hands.reread
    (Record.isNull_firstWritten previous now first)
    hands.exact_le (Record.le_stampFor previous now) hwritten hrecords

/-- Two drafts go under the same key and agree in all fields but the stamps. -/
def SameDraft (draft draft' : String × Record) : Prop :=
  draft.1 = draft'.1 ∧ draft.2.SameButStamps draft'.2

theorem own_of_sameDraft {drafts' : List (String × Record)}
    (h : List.Forall₂ SameDraft drafts drafts') (key : String) :
    List.Forall₂ Record.SameButStamps (own key drafts) (own key drafts') := by
  induction h with
  | nil => exact .nil
  | @cons draft draft' _ _ hone _ ih =>
    obtain ⟨other, r⟩ := draft
    obtain ⟨other', r'⟩ := draft'
    obtain ⟨rfl, hsame⟩ := hone
    by_cases hkey : other = key
    · subst hkey
      rw [own_cons_self, own_cons_self]
      exact .cons hsame ih
    · rw [own_cons_of_ne hkey, own_cons_of_ne hkey]
      exact ih

theorem getLastD_of_forall₂ {α : Type} {R : α → α → Prop} {l l' : List α} (h : List.Forall₂ R l l')
    {a a' : α} (ha : R a a') : R (l.getLastD a) (l'.getLastD a') := by
  induction h generalizing a a' with
  | nil => exact ha
  | cons hone _ ih =>
    rw [List.getLastD_cons, List.getLastD_cons]
    exact ih hone

/-- What a batch leaves under a key that is written again: the same record, with the later of its
moment of the last write and the clock. -/
theorem get?_batch_again (hprevious : Backend.direct.getRecord t key = .ok previous)
    (hown : own key drafts = first :: rest) (hands : HandsOn previous now first)
    (hreadable : ReadableInFront drafts) (hordered : ∀ draft ∈ drafts, draft.2.toValue.IsOrdered)
    {again : UInt64} (hagain : again.toNat ≤ 2 ^ (53 : Nat)) {drafts' : List (String × Record)}
    (hsame : List.Forall₂ SameDraft drafts drafts') (hreadable' : ReadableInFront drafts')
    (hordered' : ∀ draft ∈ drafts', draft.2.toValue.IsOrdered) {new : Table}
    (hnew : new = (session .direct t (batch now drafts)).1) {found : Option Record}
    (hfound : Backend.direct.getRecord new key = .ok found) :
    ∃ (stored : Record) (n : UInt64), new.get? key = some stored.encode ∧ stored.toValue.IsOrdered ∧
      stored.get? "updated_at" = some (.ofWord n) ∧ now ≤ n ∧
      (session .direct new (batch again drafts')).1.get? key =
        some (stored.set "updated_at" (.ofWord (max again n))).encode := by
  have hstored : new.get? key = _ := hnew ▸ get?_batch hprevious hown hands hreadable
  have hrecords := own_of_sameDraft hsame key
  rw [hown] at hrecords
  obtain ⟨first', rest', hfirst, hrest, hown'⟩ := List.forall₂_cons_left_iff.1 hrecords
  have hlast := getLastD_of_forall₂ hrest hfirst
  have hmem : rest.getLastD first ∈ own key drafts := hown ▸ List.getLastD_mem_cons
  have hmem' : rest'.getLastD first' ∈ own key drafts' := hown' ▸ List.getLastD_mem_cons
  have hlastOrdered := hordered _ (exists_of_mem_own hmem)
  have hmarked :=
    Record.isOrdered_mark key hlastOrdered hands.within.ordered (Record.stampFor previous now)
  obtain rfl := eq_reread_of_getRecord hstored hmarked hfound
  refine ⟨_, _, hstored,
    hmarked, by rw [Record.get?_mark, if_pos rfl], Record.le_stampFor previous now, ?_⟩
  have hnull := Record.isNull_firstWritten previous now first
  rw [get?_batch hfound hown'
    (handsOn_of_mark hands.within hands.reread hnull hands.exact_le hagain _ first')
      hreadable', Record.firstWritten_of_mark _ hands.reread hnull,
        Record.stampFor_of_mark _ hands.exact_le,
    Record.set_mark key hlastOrdered hands.within.ordered,
      Record.mark_of_sameButStamps key hlastOrdered
      hands.within.ordered (hordered' _ (exists_of_mem_own hmem')) hlast]

end Batch

/-! ## Whether anything is written -/

/-- A step of a session stores a record under a key: the first one, or a later one on the table that
it leaves. -/
inductive StoresUnder (key : String) : Table → List Step → Prop
  /-- The first one does. -/
  | here {t : Table} {r stored : Record} {now : UInt64} {rest : List Step}
      (h : ((Step.upsert key r now).perform .direct t).2 = .ok (.stored stored)) :
      StoresUnder key t (.upsert key r now :: rest)
  /-- A later one does. -/
  | later {t : Table} {step : Step} {rest : List Step}
    (h : StoresUnder key (step.perform .direct t).1 rest) :
      StoresUnder key t (step :: rest)

section StoresUnder

variable {key : String} {now : UInt64} {t : Table} {drafts : List (String × Record)}

/-- Where the record in place cannot be read, a batch leaves it there. -/
theorem get?_batch_of_unreadable (now : UInt64) (drafts : List (String × Record)) {e : Trouble}
    (h : Backend.direct.getRecord t key = .error e) :
    (session .direct t (batch now drafts)).1.get? key = t.get? key := by
  induction drafts generalizing t with
  | nil => rfl
  | cons draft rest ih =>
    have hsame := perform_of_unreadable now h draft.1 draft.2
    exact (ih ((getRecord_congr .direct hsame).trans h)).trans hsame

/-- A batch that stores a record under a key has one for it, and what was there could be read. -/
theorem exists_of_storesUnder (h : StoresUnder key t (batch now drafts)) :
    own key drafts ≠ [] ∧ ∃ previous, Backend.direct.getRecord t key = .ok previous := by
  induction drafts generalizing t with
  | nil => cases h
  | cons draft rest ih =>
    obtain ⟨other, r⟩ := draft
    cases h with
    | here h =>
      obtain ⟨previous, hprevious, -⟩ := exists_of_stored h
      rw [own_cons_self]
      exact ⟨List.cons_ne_nil _ _, previous, hprevious⟩
    | later h =>
      obtain ⟨hown, previous, hprevious⟩ := ih h
      refine ⟨fun hnil => hown ?_, ?_⟩
      · by_cases hother : other = key
        · rw [hother, own_cons_self] at hnil
          cases hnil
        · rwa [own_cons_of_ne hother] at hnil
      · cases hbefore : Backend.direct.getRecord t key with
        | ok found => exact ⟨found, rfl⟩
        | error e =>
          rw [getRecord_congr .direct (perform_of_unreadable now hbefore other r),
            hbefore] at hprevious
          cases hprevious

/-- A batch that stores nothing under a key leaves what is there. -/
theorem get?_batch_of_not_storesUnder (h : ¬ StoresUnder key t (batch now drafts)) :
    (session .direct t (batch now drafts)).1.get? key = t.get? key := by
  induction drafts generalizing t with
  | nil => rfl
  | cons draft rest ih =>
    obtain ⟨other, r⟩ := draft
    refine (ih fun hrest => h (.later hrest)).trans ?_
    rcases perform_upsert t other r now with ⟨previous, -, hperform⟩ | ⟨_, -, hperform⟩
    · have hne : key ≠ other := by
        rintro rfl
        exact h (.here (congrArg Prod.snd hperform))
      rw [hperform, Table.get?_insert, if_neg hne]
    · rw [hperform]

end StoresUnder

/-! ## A batch that is written again -/

/-- A table differs from another in the moments of the last write of some records, which are the
later of those in the other and a clock reading. -/
structure MovedOn (again : UInt64) (written : String → Prop) (t new : Table) : Prop where
  /-- So it is under the keys of these records, -/
  moved : ∀ key, written key → ∃ (stored : Record) (n : UInt64), t.get? key = some stored.encode ∧
    stored.get? "updated_at" = some (.ofWord n) ∧
    new.get? key = some (stored.set "updated_at" (.ofWord (max again n))).encode
  /-- and under all others they are alike. -/
  kept : ∀ key, ¬ written key → new.get? key = t.get? key

theorem set_of_get? {r : Record} {field : String} {v : Value} (hr : r.toValue.IsOrdered)
    (h : r.get? field = some v) :
    r.set field v = r := by
  have hv : v.IsOrdered := Value.fieldsOrdered_iff.1 hr.2 (field, v) (Keyed.mem_of_get? h)
  refine Record.ext_get? (Record.isOrdered_set field hr hv) hr fun other => ?_
  rw [Record.get?_set]
  split
  next heq => rw [heq, h]
  next => rfl

/-- A batch that is written again moves the records on that it writes, and changes nothing if the
clock has not gone on. -/
theorem movedOn_batch_again {t new : Table} {now again : UInt64}
    {drafts drafts' : List (String × Record)}
    (hands : ∀ draft ∈ drafts, ∀ previous, Backend.direct.getRecord t draft.1 = .ok previous →
      HandsOn previous now draft.2)
    (hagain : again.toNat ≤ 2 ^ (53 : Nat)) (hsame : List.Forall₂ SameDraft drafts drafts')
    (hreadable : ReadableInFront drafts) (hreadable' : ReadableInFront drafts')
    (hordered : ∀ draft ∈ drafts, draft.2.toValue.IsOrdered)
    (hordered' : ∀ draft ∈ drafts', draft.2.toValue.IsOrdered)
    (hnew : new = (session .direct t (batch now drafts)).1) :
    MovedOn again (StoresUnder · new (batch again drafts')) new
      (session .direct new (batch again drafts')).1 ∧
      (again ≤ now → (session .direct new (batch again drafts')).1 = new) := by
  have hstored : ∀ key, StoresUnder key new (batch again drafts') →
    ∃ (stored : Record) (n : UInt64),
      new.get? key = some stored.encode ∧ stored.toValue.IsOrdered ∧
      stored.get? "updated_at" = some (.ofWord n) ∧ now ≤ n ∧
      (session .direct new (batch again drafts')).1.get? key =
        some (stored.set "updated_at" (.ofWord (max again n))).encode := by
    intro key hkey
    obtain ⟨hown', found, hfound⟩ := exists_of_storesUnder hkey
    -- What could not be read the first time was left there, and could not be read the second time.
    cases hprevious : Backend.direct.getRecord t key with
    | error e =>
      have hleft := get?_batch_of_unreadable now drafts hprevious
      rw [← hnew] at hleft
      rw [getRecord_congr .direct hleft, hprevious] at hfound
      cases hfound
    | ok previous =>
      cases hown : own key drafts with
      | nil =>
        have hrecords := own_of_sameDraft hsame key
        rw [hown, List.forall₂_nil_left_iff] at hrecords
        exact absurd hrecords hown'
      | cons first rest =>
        have hfirst : (key, first) ∈ drafts := exists_of_mem_own (hown ▸ List.mem_cons_self)
        exact get?_batch_again hprevious hown
          (hands _ hfirst previous hprevious) hreadable hordered hagain hsame
          hreadable' hordered' hnew hfound
  refine ⟨⟨fun key hkey => ?_, fun key hkey => get?_batch_of_not_storesUnder hkey⟩, fun hle => ?_⟩
  · obtain ⟨stored, n, hfound, -, hsaid, -, hmoved⟩ := hstored key hkey
    exact ⟨stored, n, hfound, hsaid, hmoved⟩
  · refine Table.ext_get? fun key => ?_
    by_cases hkey : StoresUnder key new (batch again drafts')
    · obtain ⟨stored, n, hfound, horderedStored, hsaid, hlater, hmoved⟩ := hstored key hkey
      have hmax : max again n = n := if_pos (UInt64.le_trans hle hlater)
      rw [hmoved, hfound, hmax, set_of_get? horderedStored hsaid]
    · exact get?_batch_of_not_storesUnder hkey

end Store

end RecordBoard
