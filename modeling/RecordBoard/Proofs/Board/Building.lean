import RecordBoard.Board
import RecordBoard.Proofs.Guard
import RecordBoard.Proofs.Store.Action

/-!
# When settings make a board

Settings that pass their check make a board unless a name or a value in them cannot stand in a
header: that of the header for the secret, or an origin that would have to be compared with those of
requests.  Where pages of any origin may read answers no origin is compared, so it does not matter
what the others are.

## Main definitions

* `Http.IsValue` — octets that a header can have as its value.
* `Origins.ComesOf` — what a list of origins comes to.

## Main results

* `Origins.ofList_eq_ok_iff` — a list of origins comes to what it should.
* `Board.ofSettings_eq_ok_iff` — the board of settings, and when there is one.
-/

namespace RecordBoard

/-! ## Values of headers -/

/-- Octets that a header can have as its value: tabs, and what is no control character of ASCII. -/
def Http.IsValue (value : Bytes) : Prop := ∀ b ∈ value, b = 0x09 ∨ (0x20 ≤ b ∧ b ≠ 0x7F)

/-- The octets of a character can stand in a value if the character is a tab or no control character
of ASCII. -/
theorem isValue_utf8EncodeChar_iff {c : Char} :
    Http.IsValue (String.utf8EncodeChar c) ↔ (0x20 ≤ c.toNat ∧ c.toNat ≠ 0x7F) ∨ c = '\t' := by
  by_cases hsmall : c.toNat < 0x80
  · have htab : UInt8.ofNat c.toNat = 0x09 ↔ c = '\t' :=
      (Utf8.octet_eq_iff (by omega) 0x09 (by decide)).trans (Char.toNat_inj (d := '\t'))
    have hlow : (0x20 : UInt8) ≤ UInt8.ofNat c.toNat ↔ 0x20 ≤ c.toNat :=
      Utf8.octet_le_iff (by omega) 0x20 (by decide)
    have hdelete : UInt8.ofNat c.toNat = 0x7F ↔ c.toNat = 0x7F :=
      Utf8.octet_eq_iff (by omega) 0x7F (by decide)
    rw [Utf8.utf8EncodeChar_of_lt hsmall, Http.IsValue, List.forall_mem_singleton, htab, hlow, Ne,
      hdelete, or_comm]
  · have hbeyond := Utf8.le_of_mem_utf8EncodeChar (Nat.le_of_not_lt hsmall)
    refine iff_of_true (fun b hb => .inr ?_) (.inl (by omega))
    have hhigh := hbeyond b hb
    rw [UInt8.le_iff_toNat_le] at hhigh ⊢
    rw [Ne, ← UInt8.toNat_inj]
    simp only [UInt8.reduceToNat] at hhigh ⊢
    omega

theorem isHeaderText_iff {s : String} : isHeaderText s = true ↔ Http.IsValue (Utf8.encode s) := by
  have hoctets : Utf8.encode s = Utf8.octets s.toList := by
    rw [← Utf8.encode_ofList, String.ofList_toList]
  rw [isHeaderText, List.all_eq_true, hoctets]
  simp only [Bool.or_eq_true, Bool.and_eq_true, decide_eq_true_iff,
    beq_iff_eq, ← isValue_utf8EncodeChar_iff]
  constructor
  · intro h b hb
    obtain ⟨c, hc, hb⟩ := List.mem_flatMap.1 hb
    exact h c hc b hb
  · exact fun h c hc b hb => h b (List.mem_flatMap.2 ⟨c, hc, hb⟩)

/-! ## Lists of origins -/

namespace Origins

/-- What a list of origins comes to. -/
inductive ComesOf (list : List String) : Origins → Prop
  /-- Nothing is laid down, or the wildcard is. -/
  | any (h : list = [] ∨ "*" ∈ list) : ComesOf list .any
  /-- Some are laid down, none of them the wildcard, and requests can come from all of them. -/
  | only (hsome : list ≠ []) (named : "*" ∉ list)
    (hvalues : ∀ origin ∈ list, Http.IsValue (Utf8.encode origin)) :
      ComesOf list (.only list named)

/-- A list of origins comes to what it should. -/
theorem ofList_eq_ok_iff {list : List String} {origins : Origins} :
    ofList list = .ok origins ↔ ComesOf list origins := by
  unfold ofList
  constructor
  · intro h
    split at h
    next hany =>
      cases h
      exact .any (allowsAny_iff.1 hany)
    next hany =>
      rw [allowsAny_iff, not_or] at hany
      split at h
      next => cases h
      next hfind =>
        cases h
        refine .only hany.1 hany.2 fun origin horigin => isHeaderText_iff.1 ?_
        simpa using List.find?_eq_none.1 hfind origin horigin
  · intro h
    cases h with
    | any hany => rw [dif_pos (allowsAny_iff.2 hany)]
    | only hsome named hvalues =>
      have hnone : list.find? (fun origin => !isHeaderText origin) = none := by
        rw [List.find?_eq_none]
        intro origin horigin
        simp [isHeaderText_iff.2 (hvalues origin horigin)]
      rw [dif_neg (by rw [allowsAny_iff, not_or]; exact ⟨hsome, named⟩), hnone]

/-- It comes to nothing else. -/
theorem ComesOf.unique {list : List String} {origins origins' : Origins} (h : ComesOf list origins)
    (h' : ComesOf list origins') : origins = origins' :=
  Except.ok.inj ((ofList_eq_ok_iff.2 h).symm.trans (ofList_eq_ok_iff.2 h'))

/-- It comes to something unless requests cannot come from one of them. -/
theorem exists_comesOf_iff {list : List String} :
    (∃ origins, ComesOf list origins) ↔
      (list ≠ [] → "*" ∉ list → ∀ origin ∈ list, Http.IsValue (Utf8.encode origin)) := by
  constructor
  · rintro ⟨origins, h⟩ hsome named
    cases h with
    | any hany =>
      rcases hany with hempty | hstar
      · exact absurd hempty hsome
      · exact absurd hstar named
    | only _ _ hvalues => exact hvalues
  · intro h
    by_cases hany : list = [] ∨ "*" ∈ list
    · exact ⟨_, .any hany⟩
    · obtain ⟨hsome, named⟩ := not_or.1 hany
      exact ⟨_, .only hsome named (h hsome named)⟩

end Origins

/-! ## Boards -/

namespace Board

/-- The board of settings, and when there is one. -/
theorem ofSettings_eq_ok_iff {s : Settings} {board : Board} :
    Board.ofSettings s = .ok board ↔
      s.check = .ok () ∧ Http.IsName (Text.trim s.header) ∧
      ∃ origins, Origins.ComesOf s.origins origins ∧
        board = ⟨s.serviceName,
          ⟨Sha256.digest (Utf8.encode (s.apiKey.getD "")), Http.lowerCase (Text.trim s.header)⟩,
            s.limits, origins⟩ := by
  unfold Board.ofSettings Guard.make?
  constructor
  · intro h
    obtain ⟨⟨⟩, hcheck, h⟩ := exists_of_bind h
    cases hname : Http.headerName? s.header <;> simp only [hname] at h
    · cases h
    obtain ⟨origins, horigins, h⟩ := exists_of_bind h
    cases h
    obtain ⟨hisName, rfl⟩ := Http.headerName?_eq_some_iff.1 hname
    exact ⟨hcheck, hisName, origins, Origins.ofList_eq_ok_iff.1 horigins, rfl⟩
  · rintro ⟨hcheck, hname, origins, horigins, rfl⟩
    rw [hcheck, Http.headerName?_eq_some_iff.2 ⟨hname, rfl⟩]
    simp only [Origins.ofList_eq_ok_iff.2 horigins]
    rfl

/-- A board has the bounds of its settings, which have been checked. -/
theorem check_of_ofSettings {s : Settings} {board : Board} (h : Board.ofSettings s = .ok board) :
    s.check = .ok () ∧ board.limits = s.limits := by
  obtain ⟨hcheck, -, origins, -, rfl⟩ := ofSettings_eq_ok_iff.1 h
  exact ⟨hcheck, rfl⟩

/-- A board lets requests through that carry the secret in the header that its settings lay down. -/
theorem admits_of_ofSettings {s : Settings} {board : Board} (h : Board.ofSettings s = .ok board)
    {secret : String} (hsecret : s.apiKey = some secret) {headers : Http.Headers}
    (hcarries : headers.text? (Http.lowerCase (Text.trim s.header)) = some secret) :
    board.guard.admits headers = true := by
  obtain ⟨-, -, origins, -, rfl⟩ := ofSettings_eq_ok_iff.1 h
  rw [hsecret]
  exact Guard.admits_of_header hcarries

/-- Settings that lay down a secret and bounds make a board if they pass their check. -/
theorem exists_bounded {secret : String} {limits : Limits}
    (hcheck : ({ ({} : Settings) with apiKey := some secret, limits } : Settings).check = .ok ()) :
    ∃ board : Board, Board.ofSettings { ({} : Settings) with apiKey := some secret, limits } =
      .ok board := by
  have hname : Http.headerName? "x-api-key" = some "x-api-key" := by decide
  exact ⟨_, ofSettings_eq_ok_iff.2
    ⟨hcheck, (Http.headerName?_eq_some_iff.1 hname).1, .any, .any (.inr List.mem_cons_self), rfl⟩⟩

end Board

end RecordBoard
