import RecordBoard.Proofs.Store.Records
import RecordBoard.Proofs.Text.Hex
import RecordBoard.Proofs.Text.Order

/-!
# Pages of keys

A listing passes over keys until it comes to those that begin with a stem, and takes them until one
does not.  Since these keys stand side by side, what it takes are all the keys that begin with the
stem and lie behind the place where the last page ended, whether or not the key there is still in
the table.

A page shows the first of them.  If there are more, its cursor stands for the last key that it
shows, and the next page begins behind it.

## Main definitions

* `Table.Parts` — a key that parts a page from what is left.
* `Table.record?` — the record under a key, if its value is one.
* `Table.IsReadable` — every value under a stem is one.

## Main results

* `Cursor.decode_encode` — a cursor stands for its key.
* `run_eq_filter` — what a listing takes.
* `keys_of_cursor_none` — a page without a cursor shows what is left.
* `exists_parts_of_cursor` — the cursor of a page stands for the key that parts it from what is
  left.
* `listRecords_of_list` — the records that a page shows.
-/

namespace RecordBoard.Store

/-! ## Cursors -/

namespace Cursor

/-- A cursor stands for its key. -/
theorem decode_encode (key : String) : decode (encode key) = .ok key := by
  rw [decode, encode, Hex.decode_encode]
  dsimp only
  rw [Utf8.decode_encode]

theorem encode_ne_empty {key : String} (h : key ≠ "") : encode key ≠ "" := by
  intro hempty
  have hread := decode_encode key
  rw [hempty] at hread
  exact h (Except.ok.inj hread).symm

end Cursor

/-! ## Runs -/

/-- In a sorted list what is passed over and what is taken behind it can be told entry by entry. -/
theorem takeWhile_dropWhile_eq_filter {l : List String} (hl : l.Pairwise (· < ·))
    {passed taken : String → Bool}
    (hpassed : ∀ x y, x < y → passed y = true → passed x = true)
    (htaken : ∀ x y, x < y → passed x = false → taken y = true → taken x = true) :
    (l.dropWhile passed).takeWhile taken = l.filter fun x => !passed x && taken x := by
  induction l with
  | nil => rfl
  | cons x rest ih =>
    obtain ⟨hx, hrest⟩ := List.pairwise_cons.1 hl
    cases hpass : passed x with
    | true =>
      rw [List.dropWhile_cons_of_pos hpass, List.filter_cons_of_neg (by simp [hpass]), ih hrest]
    | false =>
      have hnone : rest.dropWhile passed = rest := by
        cases rest with
        | nil => rfl
        | cons y rest =>
          refine List.dropWhile_cons_of_neg fun hy => ?_
          rw [hpassed x y (hx y List.mem_cons_self) hy] at hpass
          cases hpass
      rw [List.dropWhile_cons_of_neg (by simp [hpass])]
      cases htake : taken x with
      | true =>
        rw [List.takeWhile_cons_of_pos htake, List.filter_cons_of_pos (by simp [hpass, htake]),
          ← ih hrest, hnone]
      | false =>
        rw [List.takeWhile_cons_of_neg (by simp [htake])]
        refine (List.filter_eq_nil_iff.2 fun y hy => ?_).symm
        rcases List.mem_cons.1 hy with rfl | hy
        · simp [htake]
        · rw [Bool.and_eq_true]
          rintro ⟨-, hy'⟩
          rw [htaken x y (hx y hy) hpass hy'] at htake
          cases htake

namespace Table

theorem begins_iff {stem key : String} : begins stem key = true ↔ stem.toList <+: key.toList :=
  List.isPrefixOf_iff_prefix

theorem keys_sorted (t : Table) : t.keys.Pairwise (· < ·) := List.pairwise_map.2 t.isSorted

theorem isPassed_of_lt {stem : String} {after : Option String} {x y : String} (h : x < y)
    (hy : isPassed stem after y = true) : isPassed stem after x = true := by
  cases after with
  | none =>
    simp only [isPassed, decide_eq_true_eq] at hy ⊢
    exact String.lt_trans h hy
  | some last =>
    simp only [isPassed] at hy ⊢
    split at hy
    next hle =>
      rw [if_pos hle]
      simp only [decide_eq_true_eq] at hy ⊢
      exact Std.le_of_lt (Std.lt_of_lt_of_le h hy)
    next hnot =>
      rw [if_neg hnot]
      simp only [decide_eq_true_eq] at hy ⊢
      exact String.lt_trans h hy

theorem le_of_not_isPassed {stem : String} {after : Option String} {x : String}
    (h : isPassed stem after x = false) : stem ≤ x := by
  cases after with
  | none =>
    simp only [isPassed, decide_eq_false_iff_not] at h
    exact String.not_lt.1 h
  | some last =>
    simp only [isPassed] at h
    split at h
    next hle =>
      simp only [decide_eq_false_iff_not] at h
      exact String.le_trans hle (Std.le_of_lt (Std.not_le.1 h))
    next =>
      simp only [decide_eq_false_iff_not] at h
      exact String.not_lt.1 h

/-- A key that begins with the stem is passed over unless it lies behind the place to go on from. -/
theorem isPassed_of_begins {stem : String} {after : Option String} {x : String}
    (h : begins stem x = true) : isPassed stem after x = !after.all (· < x) := by
  have hle : stem ≤ x := Text.le_of_begins (begins_iff.1 h)
  cases after with
  | none => simp [isPassed, String.not_lt.2 hle]
  | some last =>
    simp only [isPassed, Option.all_some]
    split
    next =>
      rw [← decide_not]
      exact decide_eq_decide.2 Std.not_lt.symm
    next hnot =>
      have hlast : last < x := Std.lt_of_lt_of_le (Std.not_le.1 hnot) hle
      simp [String.not_lt.2 hle, hlast]

/-- What a listing takes. -/
theorem run_eq_filter (stem : String) (after : Option String) (t : Table) :
    t.run stem after = t.keys.filter fun key => begins stem key && after.all (· < key) := by
  rw [run, takeWhile_dropWhile_eq_filter t.keys_sorted (fun _ _ => isPassed_of_lt)]
  · refine List.filter_congr fun key _ => ?_
    cases hbegins : begins stem key with
    | false => rw [Bool.and_false, Bool.false_and]
    | true => rw [isPassed_of_begins hbegins, Bool.not_not, Bool.and_true, Bool.true_and]
  · intro x y hlt hx hy
    exact begins_iff.2
      (Text.begins_of_between (begins_iff.1 hy) (le_of_not_isPassed hx) (Std.le_of_lt hlt))

theorem mem_run {stem key : String} {after : Option String} {t : Table} :
    key ∈ t.run stem after ↔
      key ∈ t.keys ∧ stem.toList <+: key.toList ∧ ∀ last, after = some last → last < key := by
  rw [run_eq_filter, List.mem_filter, Bool.and_eq_true, begins_iff]
  cases after <;> simp

theorem run_sorted (stem : String) (after : Option String) (t : Table) :
    (t.run stem after).Pairwise (· < ·) := by
  rw [run_eq_filter]
  exact t.keys_sorted.filter _

/-- From behind a key that was taken a listing takes what it has not taken so far. -/
theorem run_of_mem {stem last : String} {after : Option String} {t : Table}
    (h : last ∈ t.run stem after) :
    t.run stem (some last) = (t.run stem after).filter fun key => decide (last < key) := by
  obtain ⟨-, -, hafter⟩ := mem_run.1 h
  rw [run_eq_filter, run_eq_filter, List.filter_filter]
  refine List.filter_congr fun key _ => ?_
  rw [Option.all_some, Bool.and_comm (decide (last < key)), Bool.and_assoc]
  by_cases hlast : last < key
  · have hfirst : after.all (· < key) = true := by
      cases after with
      | none => rfl
      | some first => exact decide_eq_true (String.lt_trans (hafter first rfl) hlast)
    rw [hfirst, decide_eq_true hlast, Bool.true_and]
  · rw [decide_eq_false hlast, Bool.and_false, Bool.and_false, Bool.and_false]

/-! ## Pages -/

theorem mem_page {stem key : String} {limit : Nat} {after : Option String} {t : Table}
    (h : key ∈ (t.page stem limit after).keys) : key ∈ t.run stem after :=
  List.mem_of_mem_take h

/-- A page with room for it shows the only key. -/
theorem mem_page_of_single (key : String) (value : Bytes) {limit : Nat} (hlimit : 0 < limit) :
    key ∈ ((empty.insert key value).page "" limit none).keys := by
  have hrun : (empty.insert key value).run "" none = [key] := by
    rw [run_eq_filter, show (empty.insert key value).keys = [key] from rfl]
    exact List.filter_eq_self.2 fun _ _ => rfl
  obtain ⟨size, rfl⟩ := Nat.exists_eq_add_one.2 hlimit
  unfold page
  dsimp only
  rw [hrun, List.take_succ_cons]
  exact List.mem_cons_self

theorem page_sorted (stem : String) (limit : Nat) (after : Option String) (t : Table) :
    (t.page stem limit after).keys.Pairwise (· < ·) :=
  (t.run_sorted stem after).sublist (List.take_sublist limit _)

/-- The last of the entries that are shown parts a sorted list into these and the others. -/
theorem exists_last_shown {l : List String} (hl : l.Pairwise (· < ·)) {limit : Nat}
    (hlimit : 0 < limit) (hmore : limit < l.length) :
    ∃ last ∈ l.take limit, (l.take limit).getLast? = some last ∧
      (∀ key ∈ l.take limit, key ≤ last) ∧ ∀ key ∈ l.drop limit, last < key := by
  have hne : l.take limit ≠ [] := by
    rw [← List.length_pos_iff, List.length_take]
    omega
  have hlast := List.getLast_mem hne
  refine ⟨(l.take limit).getLast hne, hlast, List.getLast?_eq_some_getLast hne, ?_, ?_⟩
  · have hshown : (l.take limit).Pairwise (· < ·) := hl.sublist (List.take_sublist limit l)
    rw [← List.dropLast_concat_getLast hne] at hshown
    intro key hkey
    rw [← List.dropLast_concat_getLast hne] at hkey
    rcases List.mem_append.1 hkey with hkey | hkey
    · exact Std.le_of_lt
        ((List.pairwise_append.1 hshown).2.2 key hkey _ (List.mem_singleton_self _))
    · exact List.mem_singleton.1 hkey ▸ Std.le_refl _
  · rw [← List.take_append_drop limit l] at hl
    exact (List.pairwise_append.1 hl).2.2 _ hlast

/-- From behind the keys that were shown a listing takes at most the others. -/
theorem length_run_behind {stem last : String} {limit : Nat} {after : Option String} {t : Table}
    (hlast : last ∈ t.run stem after) (hshown : ∀ key ∈ (t.run stem after).take limit, key ≤ last)
    (hlimit : limit ≤ (t.run stem after).length) :
    (t.run stem (some last)).length + limit ≤ (t.run stem after).length := by
  have hnone : ((t.run stem after).take limit).filter (fun key => decide (last < key)) = [] :=
    List.filter_eq_nil_iff.2 fun key hkey => by simp [String.not_lt.2 (hshown key hkey)]
  have hrest : (((t.run stem after).drop limit).filter fun key => decide (last < key)).length ≤
      (t.run stem after).length - limit :=
    Nat.le_trans (List.length_filter_le _ _) (Nat.le_of_eq List.length_drop)
  rw [run_of_mem hlast]
  conv => lhs; rw [← List.take_append_drop limit (t.run stem after)]
  rw [List.filter_append, hnone, List.nil_append]
  omega

/-- A page without a cursor shows what is left. -/
theorem keys_of_cursor_none {stem : String} {limit : Nat} {after : Option String} {t : Table}
    (hlimit : 0 < limit) (h : (t.page stem limit after).cursor = none) :
    (t.page stem limit after).keys = t.run stem after := by
  refine List.take_of_length_le (Nat.le_of_not_lt fun hmore => ?_)
  obtain ⟨last, -, hget, -⟩ := exists_last_shown (t.run_sorted stem after) hlimit hmore
  simp only [page] at h
  rw [if_pos hmore, hget] at h
  cases h

/-- The last key on a page parts those that it shows from those that are left. -/
structure Parts (stem : String) (limit : Nat) (after : Option String) (last : String) (t : Table) :
    Prop where
  /-- The page shows it. -/
  shown : last ∈ (t.page stem limit after).keys
  /-- It is the last one that the page shows. -/
  le : ∀ key ∈ (t.page stem limit after).keys, key ≤ last
  /-- What the page does not show lies behind it. -/
  behind : ∀ key ∈ t.run stem after, key ∈ (t.page stem limit after).keys ∨ last < key
  /-- Something is left. -/
  more : limit < (t.run stem after).length
  /-- From behind it less is left by the length of the page. -/
  length : (t.run stem (some last)).length + limit ≤ (t.run stem after).length

/-- The cursor of a page stands for the key that parts it from what is left. -/
theorem exists_parts_of_cursor {stem c : String} {limit : Nat} {after : Option String} {t : Table}
    (hlimit : 0 < limit) (h : (t.page stem limit after).cursor = some c) :
    ∃ last, c = Cursor.encode last ∧ t.Parts stem limit after last := by
  simp only [page] at h
  split at h
  next hmore =>
    obtain ⟨last, hlast, hget, hshown, hbehind⟩ :=
      exists_last_shown (t.run_sorted stem after) hlimit hmore
    rw [hget] at h
    cases h
    refine ⟨last, rfl, hlast, hshown, fun key hkey => ?_, hmore,
      length_run_behind (List.mem_of_mem_take hlast) hshown (Nat.le_of_lt hmore)⟩
    rw [← List.take_append_drop limit (t.run stem after)] at hkey
    rcases List.mem_append.1 hkey with hkey | hkey
    · exact .inl hkey
    · exact .inr (hbehind key hkey)
  next => cases h

/-! ## The records on a page -/

/-- The record under a key, if its value is one. -/
def record? (key : String) (t : Table) : Option Record :=
  (t.get? key).bind fun value => (Record.decode value).toOption

/-- Every value under a key that begins with the stem is a record. -/
def IsReadable (stem : String) (t : Table) : Prop :=
  ∀ key value, stem.toList <+: key.toList → t.get? key = some value →
    ∃ r, Record.decode value = .ok r

theorem isReadable_empty (stem : String) : empty.IsReadable stem := by
  intro key value _ h
  cases h

/-- A record that can be read again may be added. -/
theorem IsReadable.insert {stem : String} {t : Table} (h : t.IsReadable stem) {r : Record}
    (hr : r.toValue.Within Json.maxDepth) (key : String) :
    (t.insert key r.encode).IsReadable stem := by
  intro other value hstem hvalue
  rw [get?_insert] at hvalue
  split at hvalue
  · cases hvalue
    exact ⟨_, Record.decode_encode hr⟩
  · exact h other value hstem hvalue

theorem getRecord_of_record? {key : String} {t : Table} {r : Record} (h : t.record? key = some r) :
    Backend.direct.getRecord t key = .ok (some r) := by
  obtain ⟨value, hvalue, hdecode⟩ := Option.bind_eq_some_iff.1 h
  cases hresult : Record.decode value with
  | error f =>
    rw [hresult] at hdecode
    cases hdecode
  | ok r' =>
    rw [hresult] at hdecode
    cases hdecode
    exact getRecord_of_decode hvalue hresult

theorem record?_of_getRecord {key : String} {t : Table} {found : Option Record}
    (h : Backend.direct.getRecord t key = .ok found) : t.record? key = found := by
  cases found with
  | none => rw [record?, absent_of_getRecord h, Option.bind_none]
  | some r =>
    obtain ⟨value, hvalue, hdecode⟩ := exists_value_of_getRecord h
    rw [record?, hvalue, Option.bind_some, hdecode]
    rfl

theorem exists_value {key : String} {t : Table} (h : key ∈ t.keys) :
    ∃ value, t.get? key = some value := by
  obtain ⟨⟨k, value⟩, he, rfl⟩ := List.mem_map.1 h
  exact ⟨value, Keyed.get?_of_mem t.isSorted he⟩

/-- Where all values are records there is one under each key. -/
theorem exists_record? {stem key : String} {t : Table} (h : t.IsReadable stem)
    (hstem : stem.toList <+: key.toList) (hkey : key ∈ t.keys) : ∃ r, t.record? key = some r := by
  obtain ⟨value, hvalue⟩ := exists_value hkey
  obtain ⟨r, hdecode⟩ := h key value hstem hvalue
  refine ⟨r, ?_⟩
  rw [record?, hvalue, Option.bind_some, hdecode]
  rfl

theorem readRecords_getMany {keys : List String} {t : Table}
    (h : ∀ key ∈ keys, ∀ value, t.get? key = some value → ∃ r, Record.decode value = .ok r) :
    Backend.readRecords (t.getMany keys) = .ok (keys.filterMap t.record?) := by
  induction keys with
  | nil => rfl
  | cons key rest ih =>
    obtain ⟨hkey, hrest⟩ := List.forall_mem_cons.1 h
    rw [getMany, List.filterMap_cons, List.filterMap_cons, ← getMany]
    cases hvalue : t.get? key with
    | none =>
      have hnone : t.record? key = none := by rw [record?, hvalue, Option.bind_none]
      rw [hnone]
      exact ih hrest
    | some value =>
      obtain ⟨r, hdecode⟩ := hkey value hvalue
      have hsome : t.record? key = some r := by
        rw [record?, hvalue, Option.bind_some, hdecode]
        rfl
      rw [hsome]
      show Backend.readRecords ((key, value) :: t.getMany rest) = _
      rw [Backend.readRecords, Backend.readRecord, hdecode, ih hrest]
      rfl

theorem list_of_decode {cursor last : String} (h : Cursor.decode cursor = .ok last) (t : Table)
    (stem : String) (limit : Nat) :
    Backend.direct.list t stem limit (some cursor) = .ok (t.page stem limit (some last)) := by
  unfold Backend.list
  dsimp only
  rw [h]
  rfl

theorem list_of_badCursor {cursor : String} {f : Cursor.Fault} (h : Cursor.decode cursor = .error f)
    (t : Table) (stem : String) (limit : Nat) :
    Backend.direct.list t stem limit (some cursor) = .error (.failure (.badCursor f)) := by
  unfold Backend.list
  dsimp only
  rw [h]
  rfl

/-- The records that a page shows. -/
theorem listRecords_of_list {stem : String} {limit : Nat} {cursor after : Option String} {t : Table}
    (h : t.IsReadable stem)
    (hlist : Backend.direct.list t stem limit cursor = .ok (t.page stem limit after)) :
    Backend.direct.listRecords t stem limit cursor =
      .ok ((t.page stem limit after).keys.filterMap t.record?,
        (t.page stem limit after).cursor) := by
  unfold Backend.listRecords
  rw [hlist]
  show (Backend.readRecords (t.getMany (t.page stem limit after).keys) >>= _) = _
  rw [readRecords_getMany fun key hkey value => h key value (mem_run.1 (mem_page hkey)).2.1]
  rfl

/-- Values of which one is no record cannot be read. -/
theorem readRecords_of_undecodable {entries : List (String × Bytes)} {e : String × Bytes}
    (hmem : e ∈ entries) (hdecode : ∀ r, Record.decode e.2 ≠ .ok r) :
    ∃ f, Backend.readRecords entries = .error (.failure (.unreadableRecord f)) := by
  induction entries with
  | nil => cases hmem
  | cons first rest ih =>
    rw [Backend.readRecords, Backend.readRecord]
    cases hfirst : Record.decode first.2 with
    | error f => exact ⟨f, rfl⟩
    | ok r =>
      have hrest : e ∈ rest :=
        (List.mem_cons.1 hmem).resolve_left fun heq => hdecode r (heq ▸ hfirst)
      obtain ⟨f, hf⟩ := ih hrest
      rw [hf]
      exact ⟨f, rfl⟩

/-- A page that shows the key of a value that is no record cannot be read. -/
theorem listRecords_of_undecodable {stem key : String} {limit : Nat} {cursor after : Option String}
    {t : Table} {value : Bytes}
    (hlist : Backend.direct.list t stem limit cursor = .ok (t.page stem limit after))
    (hkey : key ∈ (t.page stem limit after).keys) (hvalue : t.get? key = some value)
    (hdecode : ∀ r, Record.decode value ≠ .ok r) :
    ∃ f, Backend.direct.listRecords t stem limit cursor =
      .error (.failure (.unreadableRecord f)) := by
  have hmem : (key, value) ∈ t.getMany (t.page stem limit after).keys :=
    List.mem_filterMap.2 ⟨key, hkey, by rw [hvalue, Option.map_some]⟩
  obtain ⟨f, hf⟩ := readRecords_of_undecodable hmem hdecode
  refine ⟨f, ?_⟩
  unfold Backend.listRecords
  rw [hlist]
  show (Backend.readRecords (t.getMany (t.page stem limit after).keys) >>= _) = _
  rw [hf]
  rfl

/-- A page that is asked for with the cursor of a key goes on from behind that key. -/
theorem list_of_key (t : Table) (stem : String) (limit : Nat) (after : Option String) :
    Backend.direct.list t stem limit (after.map Cursor.encode) = .ok (t.page stem limit after) := by
  cases after with
  | none => rfl
  | some last => exact list_of_decode (Cursor.decode_encode last) t stem limit

end Table

end RecordBoard.Store
