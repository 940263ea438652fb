import RecordBoard.Proofs.Board.Put

/-!
# What is stored

Starting from the empty table, every value that requests leave is the written form of a record in
order that carries its three stamps: its own key as a text, a moment of its first write that is not
null, and a moment of its last write that is a word.  What requests say in these three fields does
not matter, since every write goes through the stamp.

The key is never empty.  Five requests make keys in five ways, and each way excludes the empty key,
the one that moves a record because the record must be there.

## Main definitions

* `IsStamped` — a record that carries its stamps.

## Main results

* `holds_isStamped` — every stored record does.
* `stored_records_are_stamped` — what that says of the entries of a table.
-/

namespace RecordBoard.Board

open Json (Value)
open Store (Backend Table)
open Http (Request)

-- Powers are those of the core library, whatever else an importing module knows.
attribute [local instance (2000)] instPowNat

/-- A record that carries its stamps, under a key that is not empty. -/
structure IsStamped (key : String) (r : Record) : Prop where
  /-- The key is not empty. -/
  key_ne : key ≠ ""
  /-- The record names it. -/
  named : r.get? "key" = some (.string key)
  /-- The moment of the first write is there. -/
  created : ∃ v, r.get? "created_at" = some v ∧ v.isNull = false
  /-- The moment of the last write is a word. -/
  updated : ∃ n : UInt64, r.get? "updated_at" = some (.ofWord n)

theorem isStamped_stamp {key : String} (hkey : key ≠ "") (previous : Option Record) (now : UInt64)
    (r : Record) : IsStamped key (r.stamp key previous now) where
  key_ne := hkey
  named := Record.get?_stamp_key key previous now r
  created :=
    ⟨_, Record.get?_stamp_created key previous now r, Record.isNull_firstWritten previous now r⟩
  updated := ⟨_, Record.get?_stamp_updated key previous now r⟩

/-- Among stored records there is none under the empty key. -/
theorem absent_of_isStamped {t : Table} (h : t.Holds IsStamped) : t.get? "" = none := by
  cases hvalue : t.get? "" with
  | none => rfl
  | some value =>
    obtain ⟨r, -, -, hr⟩ := h "" value hvalue
    exact absurd rfl hr.key_ne

/-- Every record that a run leaves is stamped, if those in the beginning are. -/
theorem holds_isStamped (board : Board) {t : Table} (h : t.Holds IsStamped) (rs : List Request) :
    (board.run .direct t rs).1.Holds IsStamped :=
  holds_run h fun _ ht r _ _ record hbrings previous _ =>
    isStamped_stamp (key_ne_empty_of_brings (absent_of_isStamped ht) hbrings) previous
      (clock r) record

/--
**What is stored carries its stamps.**  Whatever is asked of a board that begins with nothing, each
entry that it leaves is the written form of a record in order, under a key that is not empty and
that the record names, with a moment of the first write that is not null and a moment of the last
write that is an integer of sixty-four bits and not negative.
-/
theorem stored_records_are_stamped (board : Board) (rs : List Request) {key : String}
    {value : Bytes} (h : (key, value) ∈ (board.run .direct .empty rs).1.entries) :
    key ≠ "" ∧
      ∃ r : Record, value = r.encode ∧ r.toValue.IsOrdered ∧
        r.get? "key" = some (.string key) ∧
        (∃ v, r.get? "created_at" = some v ∧ v.isNull = false) ∧
        ∃ i fits, r.get? "updated_at" = some (.number (.integer i fits)) ∧ 0 ≤ i ∧
        i < 2 ^ (64 : Nat) := by
  have hvalue : (board.run .direct .empty rs).1.get? key = some value :=
    Keyed.get?_of_mem (board.run .direct .empty rs).1.isSorted h
  obtain ⟨r, hencode, hordered, hstamped⟩ :=
    holds_isStamped board Table.holds_empty rs key value hvalue
  obtain ⟨n, hn⟩ := hstamped.updated
  refine ⟨hstamped.key_ne, r, hencode, hordered, hstamped.named, hstamped.created, n.toNat, _, hn,
    ?_, ?_⟩
  · exact Int.natCast_nonneg n.toNat
  · have hlt := n.toNat_lt
    omega

/-- A record with a key and moments of writing that are none. -/
def misstamped : String :=
  "\x7b\"type\":\"b\",\"id\":7,\"key\":[\"a\"],\"created_at\":null," ++
    "\"updated_at\":\x7b\"at\":-1\x7d\x7d"

/-- A record is put and another is made, both with stamps of their own that are none. -/
theorem stored_records_of_two_requests :
    ∃ board : Board, Board.ofSettings { ({} : Settings) with apiKey := some "k" } = .ok board ∧
      ∀ key ∈ ["a", "b:7"], ∃ (value : Bytes) (r : Record),
        (key, value) ∈
          (board.run .direct .empty [putOf visit 5, smallCreate none misstamped 7]).1.entries ∧
        value = r.encode ∧ r.get? "key" = some (.string key) ∧
        (∃ v, r.get? "created_at" = some v ∧ v.isNull = false) ∧
        ∃ i fits, r.get? "updated_at" = some (.number (.integer i fits)) ∧ 0 ≤ i := by
  obtain ⟨board, hboard⟩ := exists_board "k" (by decide)
  obtain ⟨-, hput⟩ := answer_of_putOf hboard decode_visit length_visit 5
    (rfl : Backend.direct.getRecord Table.empty "a" = .ok none)
  have hkey : (draftOf? none misstamped).map Prod.fst = some "b:7" := by decide +kernel
  obtain ⟨⟨key, record⟩, hdraft, rfl⟩ := Option.map_eq_some_iff.1 hkey
  have habsent : Backend.direct.getRecord (board.answer .direct .empty (putOf visit 5)).1 "b:7" =
      .ok none := by
    refine Store.getRecord_of_absent ?_
    rw [hput, Table.get?_insert, if_neg (by decide)]
    rfl
  obtain ⟨-, -, hmade, -⟩ := answer_of_smallCreate hboard 7 (by decide +kernel) hdraft habsent
  refine ⟨board, hboard.settings, fun key hkey => ?_⟩
  have hentry : ∃ value, (board.run .direct .empty
      [putOf visit 5, smallCreate none misstamped 7]).1.get? key = some value := by
    rw [run_cons, run_cons, run_nil, hmade, hput]
    simp only [List.mem_cons, List.not_mem_nil, or_false] at hkey
    rcases hkey with rfl | rfl <;> simp [Table.get?_insert]
  obtain ⟨value, hvalue⟩ := hentry
  have hmem := Keyed.mem_of_get? hvalue
  obtain ⟨-, r, hencode, -, hnamed, hcreated, i, fits, hupdated, hle, -⟩ :=
    stored_records_are_stamped board _ hmem
  exact ⟨value, r, hmem, hencode, hnamed, hcreated, i, fits, hupdated, hle⟩

end RecordBoard.Board
