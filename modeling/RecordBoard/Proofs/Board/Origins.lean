import RecordBoard.Proofs.Board.Refusal

/-!
# Which origins are told

What pages of other origins are told is put on an answer last, whatever the request came to:
permission, a reply, a refusal or a breakdown.  Nothing before it tells an origin.

## Main definitions

* `Origins.Tells` — the origin that an answer to a request tells.

## Main results

* `get?_answer` — the origin on an answer is the one that `readableBy?` gives.
* `origins_are_told_on_every_answer` — when a board can be made, and what its answers tell.
-/

namespace RecordBoard

/-- The header that tells whose pages may read an answer. -/
def originHeader : String := "access-control-allow-origin"

/-- What an answer to a request tells, by the origins that are laid down and the headers of the
request. -/
inductive Origins.Tells (list : List String) (headers : Http.Headers) : String → Prop
  /-- Pages of any origin may read it. -/
  | any (h : list = [] ∨ "*" ∈ list) : Tells list headers "*"
  /-- The request comes from one of the origins, octet for octet. -/
  | one {origin : String} (named : "*" ∉ list) (hmem : origin ∈ list)
      (hfrom : headers.first? "origin" = some (Utf8.encode origin)) : Tells list headers origin

namespace Board

open Store (Backend Table)
open Http (Request Answer)

/-! ## Headers of an answer -/

/-- What a request came to tells no origin. -/
theorem get?_answerOf (resource : Resource) (method : String) (result : Except Halt Reply) :
    Keyed.get? originHeader (answerOf resource method result).headers = none := by
  have hbare : ∀ status body, Keyed.get? originHeader (jsonAnswer status body).headers = none :=
    fun _ _ => rfl
  cases result with
  | ok reply => rw [answerOf, get?_finished (by decide), hbare]
  | error halt =>
    cases halt with
    | failure f => rw [answerOf, get?_withMethods (by decide), get?_finished (by decide), hbare]
    | panic p =>
      unfold answerOf
      dsimp only
      split
      · exact hbare _ _
      · rw [get?_finished (by decide), hbare]

/-- Neither does permission. -/
theorem get?_permission (board : Board) (resource : Resource) (method : String) :
    Keyed.get? originHeader (permission board resource method).headers = none := by
  unfold permission
  dsimp only
  split
  · refine Keyed.get?_ofList_eq_none ?_
    simp [originHeader]
  · rw [get?_withMethods (by decide), get?_finished (by decide)]
    refine Keyed.get?_ofList_eq_none ?_
    simp [originHeader]

theorem get?_withOrigins {a : Answer} (h : Keyed.get? originHeader a.headers = none) (board : Board)
    (r : Request) :
    Keyed.get? originHeader (withOrigins board r a).headers = readableBy? board r := by
  unfold withOrigins
  dsimp only
  split
  next origin horigin =>
    rw [horigin]
    exact Keyed.get?_insert_self _ _ _
  next hnone =>
    rw [hnone, get?_withHeader_of_ne (by decide), h]

/-- The origin on an answer is the one that may read it, whatever the request came to. -/
theorem get?_answer (board : Board) (b : Backend) (t : Table) (r : Request) :
    Keyed.get? originHeader (board.answer b t r).2.headers = readableBy? board r := by
  by_cases hoptions : r.method = "OPTIONS"
  · rw [answer_of_options board b t hoptions]
    exact get?_withOrigins (get?_permission board _ _) board r
  · rw [answer_of_method board b t hoptions]
    exact get?_withOrigins (get?_answerOf _ _ _) board r

/-! ## Who may read an answer -/

theorem find?_encode_eq_some_iff {list : List String} {value : Bytes} {origin : String} :
    list.find? (fun origin => Utf8.encode origin == value) = some origin ↔ origin ∈ list ∧
    Utf8.encode origin = value := by
  constructor
  · intro h
    exact ⟨List.mem_of_find?_eq_some h, by simpa using List.find?_some h⟩
  · rintro ⟨hmem, rfl⟩
    cases hfind : list.find? fun other => Utf8.encode other == Utf8.encode origin with
    | none =>
      have hself := List.find?_eq_none.1 hfind origin hmem
      rw [beq_self_eq_true] at hself
      exact absurd rfl hself
    | some other =>
      have hsame : Utf8.encode other = Utf8.encode origin := by simpa using List.find?_some hfind
      rw [Utf8.encode_injective hsame]

/-- What an answer tells follows the list of origins that is laid down. -/
theorem readableBy?_eq_some_iff {board : Board} {list : List String}
    (h : Origins.ComesOf list board.origins) {r : Request} {value : String} :
    readableBy? board r = some value ↔ Origins.Tells list r.headers value := by
  unfold readableBy?
  generalize board.origins = origins at h
  cases h with
  | any hany =>
    dsimp only
    rw [Option.some.injEq]
    constructor
    · rintro rfl
      exact .any hany
    · intro htells
      cases htells with
      | any => rfl
      | one named hmem =>
        rcases hany with rfl | hstar
        · cases hmem
        · exact absurd hstar named
  | only hsome named =>
    dsimp only
    rw [Option.bind_eq_some_iff]
    constructor
    · rintro ⟨from?, hfrom, hfind⟩
      obtain ⟨hmem, rfl⟩ := find?_encode_eq_some_iff.1 hfind
      exact .one named hmem hfrom
    · intro htells
      cases htells with
      | any hany => exact absurd hany (not_or.2 ⟨hsome, named⟩)
      | one _ hmem hfrom => exact ⟨_, hfrom, find?_encode_eq_some_iff.2 ⟨hmem, rfl⟩⟩

/--
**Every answer tells whose pages may read it.**  Settings that pass their check make a board, unless
no header can have the name that they lay down, or pages of some origins only may read answers and
one of these origins cannot be the value of a header.  The answers of the board, whatever they are,
tell the wildcard if pages of any origin may read them, and otherwise the origin that the request
says it comes from, if it is one of those laid down; beyond that they tell none.
-/
theorem origins_are_told_on_every_answer {s : Settings} (hcheck : s.check = .ok ()) :
    ((∃ refusal, Board.ofSettings s = .error refusal) ↔
      ¬ Http.IsName (Text.trim s.header) ∨
        (s.origins ≠ [] ∧ "*" ∉ s.origins ∧ ∃ origin ∈ s.origins,
          ¬ Http.IsValue (Utf8.encode origin))) ∧
    ∀ board, Board.ofSettings s = .ok board → Origins.ComesOf s.origins board.origins ∧
      ∀ (b : Backend) (t : Table) (r : Request) (value : String),
        Keyed.get? originHeader (board.answer b t r).2.headers = some value ↔
          Origins.Tells s.origins r.headers value := by
  constructor
  · have hbuilt : (∃ board, Board.ofSettings s = .ok board) ↔
        Http.IsName (Text.trim s.header) ∧
          (s.origins ≠ [] → "*" ∉ s.origins → ∀ origin ∈ s.origins,
            Http.IsValue (Utf8.encode origin)) := by
      rw [← Origins.exists_comesOf_iff]
      constructor
      · rintro ⟨board, hboard⟩
        obtain ⟨-, hname, origins, horigins, -⟩ := ofSettings_eq_ok_iff.1 hboard
        exact ⟨hname, origins, horigins⟩
      · rintro ⟨hname, origins, horigins⟩
        exact ⟨_, ofSettings_eq_ok_iff.2 ⟨hcheck, hname, origins, horigins, rfl⟩⟩
    have hrefused : (∃ refusal, Board.ofSettings s = .error refusal) ↔
        ¬ ∃ board, Board.ofSettings s = .ok board := by
      cases Board.ofSettings s <;> simp
    rw [hrefused, hbuilt, Classical.not_and_iff_not_or_not]
    refine or_congr Iff.rfl ?_
    simp only [Classical.not_forall, exists_prop]
  · intro board hboard
    obtain ⟨-, -, origins, horigins, rfl⟩ := ofSettings_eq_ok_iff.1 hboard
    refine ⟨horigins, fun b t r value => ?_⟩
    rw [get?_answer, readableBy?_eq_some_iff horigins]

/-- Settings that lay down two origins. -/
def twoOrigins : Settings :=
  { ({} : Settings) with apiKey := some "k", origins := ["https://a.example", "https://b.example"] }

/-- A request that comes from an origin, with the secret. -/
def comingFrom (origin method uri : String) : Request :=
  ⟨method, Http.Target.ofText uri, [("x-api-key", Utf8.encode "k"), ("Origin", Utf8.encode origin)],
    [], 0, none⟩

/-- A reading that breaks down still tells the second of two origins, and permission does not tell a
third. -/
theorem breakdown_tells_second_of_two_origins :
    ∃ (board : Board) (b : Backend),
      Board.ofSettings twoOrigins = .ok board ∧ b = .subject [⟨.get, none, .panics (.text "no")⟩] ∧
      (board.answer b .empty (comingFrom "https://b.example" "GET" "/state/a")).2.status = 500 ∧
      Keyed.get? originHeader
          (board.answer b .empty (comingFrom "https://b.example" "GET" "/state/a")).2.headers =
        some "https://b.example" ∧
      (board.answer b .empty (comingFrom "https://c.example" "OPTIONS" "/state/a")).2.status = 200 ∧
      Keyed.get? originHeader
          (board.answer b .empty (comingFrom "https://c.example" "OPTIONS" "/state/a")).2.headers =
        none := by
  obtain ⟨hfails, htold⟩ := origins_are_told_on_every_answer (s := twoOrigins) rfl
  have hname : Http.headerName? "x-api-key" = some "x-api-key" := by decide
  have hvalues : twoOrigins.origins.all isHeaderText = true := by decide
  cases hboard : Board.ofSettings twoOrigins with
  | error refusal =>
    rcases hfails.1 ⟨refusal, hboard⟩ with hheader | ⟨-, -, origin, horigin, hvalue⟩
    · exact absurd (Http.headerName?_eq_some_iff.1 hname).1 hheader
    · exact absurd (isHeaderText_iff.1 (List.all_eq_true.1 hvalues origin horigin)) hvalue
  | ok board =>
    obtain ⟨-, htold⟩ := htold board hboard
    have hadmits : board.guard.admits (comingFrom "https://b.example" "GET" "/state/a").headers =
        true :=
      admits_of_ofSettings hboard rfl (by decide +kernel)
    have hresource : Resource.ofTarget (comingFrom "https://b.example" "GET" "/state/a").target =
        .record "a" := by
      decide
    refine ⟨board, _, rfl, rfl, ?_, ?_, ?_, ?_⟩
    · have hbroken : (outcome board (.subject [⟨.get, none, .panics (.text "no")⟩]) .empty
          (comingFrom "https://b.example" "GET" "/state/a")).2 = .error (.panic (.text "no")) := by
        rw [outcome_of_admitted board _ _ hadmits, carryOut_of_get rfl hresource]
        rfl
      rw [status_of_error (by decide) hbroken]
      rfl
    · exact (htold _ _ _ _).2 (.one (by decide) (by decide) (by decide +kernel))
    · rw [answer_of_options board _ _ rfl, status_withOrigins, status_permission]
    · rw [Option.eq_none_iff_forall_ne_some]
      intro value hvalue
      cases (htold _ _ _ _).1 hvalue with
      | any hany => exact absurd hany (by decide)
      | one _ hmem hfrom =>
        have hcomes : (comingFrom "https://c.example" "OPTIONS" "/state/a").headers.first?
          "origin" =
            some (Utf8.encode "https://c.example") := by decide +kernel
        rw [hcomes] at hfrom
        rw [← Utf8.encode_injective (Option.some.inj hfrom)] at hmem
        exact absurd hmem (by decide)

end Board

end RecordBoard
