import Mathlib.Data.List.Forall2
import Mathlib.Data.List.Induction
import RecordBoard.Proofs.Record.Identity
import RecordBoard.Record.Tally

/-!
# What counters count

A summary goes over the records once and raises two counters for each, the one of its kind and the
one of its status.  The name of the kind is found in four places, one after the other, so it is said
here which of them counts; the name of the status is found in one.

Either list of counters is then that of a list of names, and of such a list there is only one that
counts it.  Since it says of each name how often it occurs, and nothing else, the order of the names
does not matter, and two lists one behind the other are counted like each for itself.

## Main definitions

* `Record.IsGroupedUnder`, `Record.IsInStatus` — the names under which a record is counted.
* `Counters.Counts` — counters tell how often each name occurs in a list.
* `Tally.IsSum` — a tally has the counts of two others together.

## Main results

* `Record.isGroupedUnder_iff`, `Record.isInStatus_iff` — there is one name of either sort for each
  record.
* `Counters.counts_ofNames` — raising a counter for each name counts them.
* `Counters.Counts.eq_of_perm` — names in another order are counted alike.
* `Tally.ofList_eq` — a tally counts the names of its records.
-/

namespace RecordBoard

/-! ## The names of a record -/

namespace Record

/-- The name under which a record is counted by its kind. -/
inductive IsGroupedUnder (r : Record) : String → Prop
  /-- It is the type of the record, -/
  | type {entityType : String} (h : r.HasType entityType) : IsGroupedUnder r entityType
  /-- or else what is in front of the first colon in the key that the record names, unless that is
  empty, -/
  | front {front rest : String} (htype : ∀ text, ¬ r.HasType text)
      (hkey : r.get? "key" = some (.string (front ++ ":" ++ rest))) (hne : front ≠ "")
      (hcolon : ':' ∉ front.toList) :
      IsGroupedUnder r front
  /-- or else the one for all that are left. -/
  | unknown (htype : ∀ text, ¬ r.HasType text)
      (hkey : ∀ front rest, r.get? "key" = some (.string (front ++ ":" ++ rest)) → front = "" ∨
        ':' ∈ front.toList) :
      IsGroupedUnder r "unknown"

/-- The name under which a record is counted by its status. -/
inductive IsInStatus (r : Record) : String → Prop
  /-- It is the text of the status, -/
  | told {status : String} (h : r.Says "status" status) : IsInStatus r status
  /-- or else the one for all that are left. -/
  | unknown (h : ∀ text, ¬ r.Says "status" text) : IsInStatus r "unknown"

theorem frontOfKey_eq_some_iff {r : Record} {front : String} :
    r.key?.bind keyPrefix? = some front ↔
      front ≠ "" ∧ ':' ∉ front.toList ∧ ∃ rest,
        r.get? "key" = some (.string (front ++ ":" ++ rest)) := by
  rw [Option.bind_eq_some_iff]
  constructor
  · rintro ⟨key, hkey, hfront⟩
    obtain ⟨hne, hcolon, rest, rfl⟩ := keyPrefix?_eq_some_iff.1 hfront
    exact ⟨hne, hcolon, rest, (key?_eq_some_iff.1 hkey).1⟩
  · rintro ⟨hne, hcolon, rest, hget⟩
    refine ⟨front ++ ":" ++ rest, key?_eq_some_iff.2 ⟨hget, ?_⟩,
      keyPrefix?_eq_some_iff.2 ⟨hne, hcolon, rest, rfl⟩⟩
    exact composedKey_ne_empty front rest

/-- There is one name for each record. -/
theorem isGroupedUnder_iff (r : Record) (name : String) :
    r.IsGroupedUnder name ↔ r.kind?.getD Tally.unknown = name := by
  unfold kind?
  cases htype : r.entityType? with
  | some entityType =>
    have hhas := entityType?_eq_some_iff.1 htype
    constructor
    · rintro (h | ⟨hnone, -, -, -⟩ | ⟨hnone, -⟩)
      · exact Option.some.inj (htype.symm.trans (entityType?_eq_some_iff.2 h))
      · exact absurd hhas (hnone entityType)
      · exact absurd hhas (hnone entityType)
    · rintro rfl
      exact .type hhas
  | none =>
    have hnone := entityType?_eq_none_iff.1 htype
    show _ ↔ (r.key?.bind keyPrefix?).getD Tally.unknown = name
    cases hfront : r.key?.bind keyPrefix? with
    | some front =>
      obtain ⟨hne, hcolon, rest, hkey⟩ := frontOfKey_eq_some_iff.1 hfront
      constructor
      · rintro (h | ⟨-, hkey', hne', hcolon'⟩ | ⟨-, hnot⟩)
        · exact absurd h (hnone name)
        · exact Option.some.inj
            (hfront.symm.trans (frontOfKey_eq_some_iff.2 ⟨hne', hcolon', _, hkey'⟩))
        · rcases hnot front rest hkey with hempty | hin
          · exact absurd hempty hne
          · exact absurd hin hcolon
      · rintro rfl
        exact .front hnone hkey hne hcolon
    | none =>
      have hnot : ∀ front rest, r.get? "key" = some (.string (front ++ ":" ++ rest)) → front ≠ "" →
          ':' ∉ front.toList → False := by
        intro front rest hkey hne hcolon
        rw [frontOfKey_eq_some_iff.2 ⟨hne, hcolon, rest, hkey⟩] at hfront
        cases hfront
      constructor
      · rintro (h | ⟨-, hkey, hne, hcolon⟩ | -)
        · exact absurd h (hnone name)
        · exact (hnot _ _ hkey hne hcolon).elim
        · rfl
      · rintro rfl
        refine .unknown hnone fun front rest hkey => or_iff_not_imp_left.2 fun hne => ?_
        by_contra hcolon
        exact hnot front rest hkey hne hcolon

theorem isInStatus_iff (r : Record) (name : String) :
    r.IsInStatus name ↔ r.status?.getD Tally.unknown = name := by
  unfold status?
  cases hstatus : r.text? "status" with
  | some status =>
    have hsays := text?_eq_some_iff.1 hstatus
    constructor
    · rintro (h | h)
      · exact Option.some.inj (hstatus.symm.trans (text?_eq_some_iff.2 h))
      · exact absurd hsays (h status)
    · rintro rfl
      exact .told hsays
  | none =>
    have hnone := text?_eq_none_iff.1 hstatus
    constructor
    · rintro (h | -)
      · exact absurd h (hnone name)
      · rfl
    · rintro rfl
      exact .unknown hnone

end Record

/-! ## Counters -/

namespace Counters

/-- How often a name was counted. -/
def count (name : String) (counters : Counters) : Nat := (Keyed.get? name counters).getD 0

/-- What was counted in all. -/
def sum : Counters → Nat
  | [] => 0
  | (_, n) :: rest => n + sum rest

/-- The counters of a list of names. -/
def ofNames (names : List String) : Counters :=
  names.foldl (fun counters name => counters.add name) []

/-- Counters tell how often each name occurs in a list, and leave out those that do not. -/
structure Counts (names : List String) (counters : Counters) : Prop where
  /-- They are in the order of their names, none of them twice. -/
  sorted : Keyed.IsSorted counters
  /-- They are those of the names in the list. -/
  mem_iff : ∀ name n, (name, n) ∈ counters ↔ 0 < n ∧ names.count name = n
  /-- Every name in the list is counted once. -/
  sum : counters.sum = names.length

theorem ofNames_concat (names : List String) (name : String) :
    ofNames (names ++ [name]) = (ofNames names).add name := by
  rw [ofNames, List.foldl_append]
  rfl

/-- Another number under a name changes the sum by as much as the number. -/
theorem sum_insert {counters : Counters} (h : Keyed.IsSorted counters) (name : String) (n : Nat) :
    sum (Keyed.insert name n counters) + counters.count name = counters.sum + n := by
  induction counters with
  | nil => simp [Keyed.insert, count, sum]
  | cons e rest ih =>
    obtain ⟨other, m⟩ := e
    obtain ⟨hall, hrest⟩ := List.pairwise_cons.1 h
    simp only [Keyed.insert]
    split
    next hlt =>
      have habsent : Keyed.get? name ((other, m) :: rest) = none := by
        refine Keyed.get?_eq_none_of_lt (List.forall_mem_cons.2 ⟨hlt, fun e he => ?_⟩)
        exact String.lt_trans hlt (hall e he)
      rw [count, habsent]
      simp [sum, Nat.add_comm]
    next =>
      split
      next heq =>
        rw [count, Keyed.get?, if_pos heq]
        simp only [sum, Option.getD_some]
        omega
      next hne =>
        have hih := ih hrest
        rw [count] at hih
        rw [count, Keyed.get?, if_neg hne]
        simp only [sum]
        omega

namespace Counts

variable {names names' : List String} {counters counters' : Counters}

theorem get?_eq_some_iff (h : counters.Counts names) {name : String} {n : Nat} :
    Keyed.get? name counters = some n ↔ 0 < n ∧ names.count name = n := by
  rw [← h.mem_iff]
  exact ⟨Keyed.mem_of_get?, Keyed.get?_of_mem h.sorted⟩

theorem count_eq (h : counters.Counts names) (name : String) :
    counters.count name = names.count name := by
  rw [count]
  cases hget : Keyed.get? name counters with
  | some n => exact (h.get?_eq_some_iff.1 hget).2.symm
  | none =>
    by_contra hne
    have hpos : 0 < names.count name := Nat.pos_of_ne_zero (Ne.symm hne)
    rw [h.get?_eq_some_iff.2 ⟨hpos, rfl⟩] at hget
    cases hget

/-- One more name is counted. -/
theorem add (h : counters.Counts names) (name : String) :
    (counters.add name).Counts (names ++ [name]) where
  sorted := h.sorted.insert name _
  mem_iff other n := by
    have hget : (other, n) ∈ counters.add name ↔ Keyed.get? other (counters.add name) = some n :=
      ⟨Keyed.get?_of_mem (h.sorted.insert name _), Keyed.mem_of_get?⟩
    rw [hget, Counters.add, Keyed.get?_insert, ← count, h.count_eq, List.count_append]
    by_cases hsame : other = name
    · subst hsame
      rw [if_pos rfl, List.count_singleton_self, Option.some_inj]
      omega
    · have hother : (name == other) = false := beq_eq_false_iff_ne.2 (Ne.symm hsame)
      rw [if_neg hsame, h.get?_eq_some_iff, List.count_singleton, hother, if_neg Bool.false_ne_true,
        Nat.add_zero]
  sum := by
    have hsum := sum_insert h.sorted name ((counters.count name) + 1)
    rw [h.sum] at hsum
    rw [List.length_append, List.length_singleton]
    exact Nat.add_right_cancel (hsum.trans (by omega))

/-- Names in another order are counted alike. -/
theorem eq_of_perm (h : counters.Counts names) (h' : counters'.Counts names')
    (hperm : names.Perm names') :
    counters = counters' := by
  refine Keyed.eq_of_get?_eq h.sorted h'.sorted fun name => Option.ext fun n => ?_
  rw [h.get?_eq_some_iff, h'.get?_eq_some_iff, hperm.count_eq]

/-- Names behind others are counted on top of them. -/
theorem count_append {whole : Counters} (hwhole : whole.Counts (names ++ names'))
    (h : counters.Counts names) (h' : counters'.Counts names') (name : String) :
    whole.count name = counters.count name + counters'.count name := by
  rw [hwhole.count_eq, h.count_eq, h'.count_eq, List.count_append]

end Counts

/-- Raising a counter for each name counts them. -/
theorem counts_ofNames (names : List String) : (ofNames names).Counts names := by
  induction names using List.reverseRecOn with
  | nil =>
    refine ⟨List.Pairwise.nil, fun name n => ?_, rfl⟩
    rw [List.count_nil]
    exact ⟨nofun, fun ⟨hpos, hzero⟩ => absurd hzero (Nat.ne_of_lt hpos)⟩
  | append_singleton names name ih =>
    rw [ofNames_concat]
    exact ih.add name

end Counters

/-! ## Tallies -/

namespace Tally

/-- A tally has the counts of two others together. -/
structure IsSum (part part' whole : Tally) : Prop where
  /-- It counts as many records as both. -/
  total : whole.total = part.total + part'.total
  /-- Each kind has been counted as often as in both. -/
  byType : ∀ name, whole.byType.count name = part.byType.count name + part'.byType.count name
  /-- So has each status. -/
  byStatus : ∀ name, whole.byStatus.count name =
    part.byStatus.count name + part'.byStatus.count name

/-- The names of records by kind. -/
def kinds (records : List Record) : List String := records.map fun r => r.kind?.getD unknown

/-- The names of records by status. -/
def statuses (records : List Record) : List String := records.map fun r => r.status?.getD unknown

/-- A tally counts the names of its records. -/
theorem ofList_eq (records : List Record) :
    ofList records = ⟨records.length, .ofNames (kinds records), .ofNames (statuses records)⟩ := by
  induction records using List.reverseRecOn with
  | nil => rfl
  | append_singleton records r ih =>
    have hlast : ofList (records ++ [r]) = (ofList records).add r := by
      rw [ofList, List.foldl_append]
      rfl
    rw [hlast, ih, kinds, kinds, statuses, statuses, List.map_append, List.map_append,
      List.length_append]
    simp only [List.map_cons, List.map_nil, Counters.ofNames_concat]
    rfl

/-- Where each record has one name, a list of records has one list of names. -/
theorem forall₂_iff_map_eq {Named : Record → String → Prop} {name : Record → String}
    (h : ∀ r text, Named r text ↔ name r = text) {records : List Record} {names : List String} :
    List.Forall₂ Named records names ↔ records.map name = names := by
  rw [← List.forall₂_eq_eq_eq, List.forall₂_map_left_iff]
  exact ⟨List.Forall₂.imp fun r text => (h r text).1, List.Forall₂.imp fun r text => (h r text).2⟩

theorem existsUnique_kinds (records : List Record) :
    ∃! names, List.Forall₂ Record.IsGroupedUnder records names := by
  simp only [forall₂_iff_map_eq Record.isGroupedUnder_iff]
  exact existsUnique_eq'

theorem existsUnique_statuses (records : List Record) :
    ∃! names, List.Forall₂ Record.IsInStatus records names := by
  simp only [forall₂_iff_map_eq Record.isInStatus_iff]
  exact existsUnique_eq'

theorem counts_byType {records : List Record} {names : List String}
    (h : List.Forall₂ Record.IsGroupedUnder records names) :
    (ofList records).byType.Counts names := by
  rw [ofList_eq, ← (forall₂_iff_map_eq Record.isGroupedUnder_iff).1 h]
  exact Counters.counts_ofNames _

theorem counts_byStatus {records : List Record} {names : List String}
    (h : List.Forall₂ Record.IsInStatus records names) :
    (ofList records).byStatus.Counts names := by
  rw [ofList_eq, ← (forall₂_iff_map_eq Record.isInStatus_iff).1 h]
  exact Counters.counts_ofNames _

/-- Records in another order come to the same. -/
theorem ofList_eq_of_perm {records others : List Record} (h : records.Perm others) :
    ofList others = ofList records := by
  have hkinds : Counters.ofNames (kinds others) = .ofNames (kinds records) :=
    (Counters.counts_ofNames _).eq_of_perm (Counters.counts_ofNames _) (h.symm.map _)
  have hstatuses : Counters.ofNames (statuses others) = .ofNames (statuses records) :=
    (Counters.counts_ofNames _).eq_of_perm (Counters.counts_ofNames _) (h.symm.map _)
  rw [ofList_eq, ofList_eq, h.length_eq, hkinds, hstatuses]

/-- Records behind others are counted on top of them. -/
theorem isSum_append (records others : List Record) :
    (ofList records).IsSum (ofList others) (ofList (records ++ others)) := by
  have hkinds : kinds (records ++ others) = kinds records ++ kinds others := List.map_append
  have hstatuses : statuses (records ++ others) = statuses records ++ statuses others :=
    List.map_append
  rw [ofList_eq, ofList_eq, ofList_eq, hkinds, hstatuses]
  exact {
    total := List.length_append
    byType := Counters.Counts.count_append (Counters.counts_ofNames _) (Counters.counts_ofNames _)
      (Counters.counts_ofNames _)
    byStatus := Counters.Counts.count_append (Counters.counts_ofNames _) (Counters.counts_ofNames _)
      (Counters.counts_ofNames _) }

end Tally

end RecordBoard
