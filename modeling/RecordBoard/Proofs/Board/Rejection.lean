import RecordBoard.Proofs.Board.Building
import RecordBoard.Proofs.Board.Run

/-!
# Requests that the guard turns away

What a request without the secret is told does not depend on what is stored, and it changes
nothing.  Two resources are open to it, and neither shows the table: the one says that the service
is there, the other whether a listing comes back, and a listing without a cursor comes back from
every table.  All others are refused before the store is called, so there the answer does not even
depend on how the store treats its calls.

Nor does the answer depend on the secret: boards of settings that differ in it alone differ in
nothing but the digest that the guard compares with.

Of the method a refusal shows little.  An answer to `HEAD` is left without its body, and an answer
to a method that a resource is not served by tells the methods that it is served by; nothing else
differs.

## Main results

* `outcome_of_rejected` — such a request comes to the same on every table, and leaves it alone.
* `ofSettings_secret` — the secret of settings shows in the digest of the guard only.
* `headers_answerOf_unauthorized` — how the headers of a refusal depend on the method.
* `rejected_request_learns_and_changes_nothing` — both together, with what follows for runs.
* `head_of_rejected_is_bare` — an answer to `HEAD` has no body, the one of a refusal included.
-/

namespace RecordBoard.Board

open Store (Backend Table)
open Http (Request Answer Target)

/-! ## One table is as good as another -/

/-- A listing without a cursor comes to its end on one table if it does on another. -/
theorem ready_eq (b : Backend) (t t' : Table) : ready b t = (t, (ready b t').2) := by
  unfold ready Backend.list Backend.through
  cases b.effectOn? .list "" with
  | none => rfl
  | some effect => cases effect <;> rfl

/-- What is served without the secret leaves the table alone and does not show it. -/
theorem carryOut_of_open (board : Board) (b : Backend) (t t' : Table) {r : Request}
    (hopen : (Resource.ofTarget r.target).isGuarded = false) :
    carryOut board b t r = (t, (carryOut board b t' r).2) := by
  unfold carryOut
  cases hres : Resource.ofTarget r.target with
  | health => cases Verb.ofMethod r.method <;> rfl
  | ready =>
      cases Verb.ofMethod r.method with
      | get => exact ready_eq b t t'
      | _ => rfl
  | _ => simp [hres, Resource.isGuarded] at hopen

theorem outcome_of_guarded (board : Board) (b : Backend) (t : Table) {r : Request}
    (hguarded : (Resource.ofTarget r.target).isGuarded = true)
    (hrejected : board.guard.admits r.headers = false) :
    outcome board b t r = (t, fail .unauthorized) := by
  simp [outcome, hguarded, hrejected]

/-- A request that is turned away comes to the same on every table, and leaves it alone. -/
theorem outcome_of_rejected (board : Board) (b : Backend) (t t' : Table) {r : Request}
    (hrejected : board.guard.admits r.headers = false) :
    outcome board b t r = (t, (outcome board b t' r).2) := by
  cases hguarded : (Resource.ofTarget r.target).isGuarded with
  | true =>
      rw [outcome_of_guarded board b t hguarded hrejected,
        outcome_of_guarded board b t' hguarded hrejected]
  | false =>
      simp only [outcome, hguarded, Bool.false_and, Bool.false_eq_true, if_false]
      exact carryOut_of_open board b t t' hguarded

theorem answer_of_rejected (board : Board) (b : Backend) (t t' : Table) {r : Request}
    (hrejected : board.guard.admits r.headers = false) :
    board.answer b t r = (t, (board.answer b t' r).2) := by
  unfold answer
  by_cases hoptions : r.method = "OPTIONS"
  · simp only [hoptions, if_true]
  · simp only [hoptions, if_false]
    rw [outcome_of_rejected board b t t' hrejected]

/-! ## One secret is as good as another -/

/-- The board with another digest in its guard. -/
def withDigest (board : Board) (digest : Bytes) : Board :=
  { board with guard := { board.guard with digest } }

/-- The secret of settings shows in the digest of the guard only. -/
theorem ofSettings_secret {s : Settings} {secret other : String} {board board' : Board}
    (hboard : Board.ofSettings { s with apiKey := some secret } = .ok board)
    (hother : Board.ofSettings { s with apiKey := some other } = .ok board') :
    ∃ digest, board' = board.withDigest digest := by
  obtain ⟨-, -, origins, horigins, rfl⟩ := ofSettings_eq_ok_iff.1 hboard
  obtain ⟨-, -, origins', horigins', rfl⟩ := ofSettings_eq_ok_iff.1 hother
  rw [horigins.unique horigins']
  exact ⟨_, rfl⟩

/-- The answer to a request that two guards turn away does not tell them apart. -/
theorem answer_withDigest (board : Board) (digest : Bytes) (b : Backend) (t : Table) {r : Request}
    (hrejected : board.guard.admits r.headers = false)
    (hrejected' : (board.withDigest digest).guard.admits r.headers = false) :
    (board.withDigest digest).answer b t r = board.answer b t r := by
  have houtcome : outcome (board.withDigest digest) b t r = outcome board b t r := by
    cases hguarded : (Resource.ofTarget r.target).isGuarded with
    | true =>
        rw [outcome_of_guarded _ b t hguarded hrejected,
          outcome_of_guarded _ b t hguarded hrejected']
    | false =>
        simp only [outcome, hguarded, Bool.false_and, Bool.false_eq_true, if_false]
        unfold carryOut
        cases hres : Resource.ofTarget r.target with
        | health => rfl
        | ready => rfl
        | _ => simp [hres, Resource.isGuarded] at hguarded
  unfold answer
  rw [houtcome]
  rfl

/-! ## What is refused outright -/

/-- What is left behind a host begins with a slash or with a question mark. -/
private theorem behindHost_head {chars rest : List Char} {c : Char}
    (h : Target.behindHost? chars = some (c :: rest)) : c = '/' ∨ c = '?' := by
  unfold Target.behindHost? at h
  split at h
  · have hhead := List.head?_dropWhile_not (fun c => c != '/' && c != '?') ‹List Char›
    rw [Option.some.inj h] at hhead
    simp only [List.head?_cons, Bool.and_eq_false_iff, bne_eq_false_iff_eq] at hhead
    exact hhead
  · cases h

private theorem path_ofPath (rest : List Char) :
    ∃ back, (Target.ofText.ofPath ('/' :: rest)).path = String.ofList ('/' :: back) :=
  ⟨rest.takeWhile (· != '?'), rfl⟩

/-- The path of a target that a text gives is empty, an asterisk, or begins with a slash. -/
theorem path_ofText (uri : String) :
    (Target.ofText uri).path = "" ∨ (Target.ofText uri).path = "*" ∨
      ∃ back, (Target.ofText uri).path = String.ofList ('/' :: back) := by
  unfold Target.ofText
  dsimp only
  split
  · rename_i rest hchars
    rw [hchars]
    exact .inr (.inr (path_ofPath rest))
  · exact .inr (.inl rfl)
  · split
    · exact .inr (.inr ⟨[], rfl⟩)
    · exact .inr (.inr ⟨[], rfl⟩)
    · rename_i rest hempty hquestion hbehind
      cases rest with
      | nil => exact absurd rfl hempty
      | cons c rest =>
          rcases behindHost_head hbehind with rfl | rfl
          · exact .inr (.inr (path_ofPath _))
          · exact absurd rfl (hquestion rest)
    · exact .inl rfl

theorem parts_ne_nil (separator : Char) (chars : List Char) :
    Target.parts separator chars ≠ [] := by
  cases chars with
  | nil => simp [Target.parts]
  | cons c rest =>
      simp only [Target.parts]
      split
      · simp
      · split <;> simp

/-- A text of one part is that part. -/
theorem eq_of_parts_eq_singleton {separator : Char} {chars part : List Char}
    (h : Target.parts separator chars = [part]) : chars = part := by
  induction chars generalizing part with
  | nil => simpa [Target.parts] using h
  | cons c rest ih =>
      simp only [Target.parts] at h
      split at h
      · exact absurd (List.cons.inj h).2 (parts_ne_nil separator rest)
      · split at h
        · rename_i hnil
          exact absurd hnil (parts_ne_nil separator rest)
        · rename_i hparts
          obtain ⟨rfl, rfl⟩ := List.cons.inj h
          rw [ih hparts]

/-- A path behind whose slash stands one segment is the slash and the segment. -/
private theorem path_of_segments {target : Target} {back : List Char} {segment : String}
    (hpath : target.path = String.ofList ('/' :: back)) (h : target.segments = [segment]) :
    target.path = String.ofList ('/' :: segment.toList) := by
  have hparts : (Target.parts '/' back).map String.ofList = [segment] := by
    simpa [Target.segments, hpath, Target.parts] using h
  obtain ⟨part, hpart, rfl⟩ := List.map_eq_singleton_iff.1 hparts
  rw [hpath, eq_of_parts_eq_singleton hpart, String.toList_ofList]

/-- Of the targets that texts give, three paths alone are served without the secret. -/
theorem isGuarded_of_path {uri : String}
    (hpath : (Target.ofText uri).path ∉ ["/", "/health", "/ready"]) :
    (Resource.ofTarget (Target.ofText uri)).isGuarded = true := by
  have hne : ∀ segment : String, (Target.ofText uri).segments = [segment] →
      String.ofList ('/' :: segment.toList) ∉ ["/", "/health", "/ready"] := by
    intro segment hsegment
    rcases path_ofText uri with hempty | hstar | ⟨back, hback⟩
    · simp [Target.segments, hempty, Target.parts] at hsegment
    · rw [show (Target.ofText uri).segments = [] by rw [Target.segments, hstar]; decide] at hsegment
      cases hsegment
    · rwa [path_of_segments hback hsegment] at hpath
  unfold Resource.ofTarget
  split
  · exact absurd (by decide) (hne "" ‹_›)
  · exact absurd (by decide) (hne "health" ‹_›)
  · exact absurd (by decide) (hne "ready" ‹_›)
  all_goals first | rfl | (split <;> rfl)

/-! ## Headers of an answer -/

theorem get?_withHeader_of_ne {name other : String} (h : other ≠ name) (value : String)
    (a : Answer) :
    Keyed.get? other (a.withHeader name value).headers = Keyed.get? other a.headers :=
  Keyed.get?_insert_of_ne h value a.headers

/-- The length is told of the body that there would be. -/
theorem headers_finished (method : String) (a : Answer) :
    (finished method a).headers =
      Keyed.insert "content-length" (toString a.body.utf8ByteSize) a.headers := by
  unfold finished
  dsimp only
  split <;> rfl

theorem get?_finished {name : String} (h : name ≠ "content-length") (method : String) (a : Answer) :
    Keyed.get? name (finished method a).headers = Keyed.get? name a.headers := by
  rw [headers_finished, Keyed.get?_insert_of_ne h]

theorem headers_withMethods (resource : Resource) (method : String) (a : Answer) :
    (withMethods resource method a).headers =
      if resource = .nothing ∨ method ∈ resource.methods then a.headers
      else Keyed.insert "allow" (allowed resource) a.headers := by
  unfold withMethods
  split <;> rfl

theorem get?_withMethods {name : String} (h : name ≠ "allow") (resource : Resource)
    (method : String) (a : Answer) :
    Keyed.get? name (withMethods resource method a).headers = Keyed.get? name a.headers := by
  rw [headers_withMethods]
  split
  · rfl
  · exact Keyed.get?_insert_of_ne h _ _

/-- Whose pages may read an answer is told beside what else its headers tell. -/
theorem headers_withOrigins_congr {a a' : Answer} (h : a.headers = a'.headers) (board : Board)
    (r : Request) : (withOrigins board r a).headers = (withOrigins board r a').headers := by
  unfold withOrigins Answer.withHeader
  dsimp only
  split <;> simp only [h]

theorem get?_withOrigins_congr {name : String} {a a' : Answer}
    (h : Keyed.get? name a.headers = Keyed.get? name a'.headers) (board : Board) (r : Request) :
    Keyed.get? name (withOrigins board r a).headers =
      Keyed.get? name (withOrigins board r a').headers := by
  unfold withOrigins Answer.withHeader
  dsimp only
  split <;> simp only [Keyed.get?_insert, h]

theorem get?_withOrigins_of_ne {name : String} (hvary : name ≠ "vary")
    (horigin : name ≠ "access-control-allow-origin") (board : Board) (r : Request) (a : Answer) :
    Keyed.get? name (withOrigins board r a).headers = Keyed.get? name a.headers := by
  unfold withOrigins
  dsimp only
  split
  · rw [get?_withHeader_of_ne horigin, get?_withHeader_of_ne hvary]
  · exact get?_withHeader_of_ne hvary _ a

@[simp] theorem status_withOrigins (board : Board) (r : Request) (a : Answer) :
    (withOrigins board r a).status = a.status := by
  unfold withOrigins
  split <;> rfl

@[simp] theorem body_withOrigins (board : Board) (r : Request) (a : Answer) :
    (withOrigins board r a).body = a.body := by
  unfold withOrigins
  split <;> rfl

/-! ## Refusals -/

/-- What is served to `GET` is served to `HEAD`. -/
theorem Resource.head_mem_methods (resource : Resource) :
    "HEAD" ∈ resource.methods ↔ "GET" ∈ resource.methods := by
  cases resource <;> simp [Resource.methods]

/-- What a request that is turned away is told, unless it is for one of the open resources. -/
theorem answerOf_unauthorized (resource : Resource) (method : String) :
    (answerOf resource method (fail .unauthorized)).status = 401 ∧
    (answerOf resource method (fail .unauthorized)).body =
      if method = "HEAD" then "" else (errorBody "unauthorized").text := by
  unfold answerOf fail withMethods finished
  dsimp only
  split <;> split <;> exact ⟨rfl, rfl⟩

/-- The headers of a refusal: nothing but the methods that are told depends on the one that was
used. -/
theorem headers_answerOf_unauthorized (resource : Resource) (method : String) :
    (answerOf resource method (fail .unauthorized)).headers =
      if resource = .nothing ∨ method ∈ resource.methods then
        (finished "GET" (jsonAnswer 401 (errorBody "unauthorized"))).headers
      else Keyed.insert "allow" (allowed resource)
        (finished "GET" (jsonAnswer 401 (errorBody "unauthorized"))).headers := by
  have hsame : (finished method (jsonAnswer 401 (errorBody "unauthorized"))).headers =
      (finished "GET" (jsonAnswer 401 (errorBody "unauthorized"))).headers := by
    rw [headers_finished, headers_finished]
  rw [← hsame]
  exact headers_withMethods resource method _

/-- Whatever header of a refusal is asked about, the method makes no difference to it, unless it
tells the methods. -/
theorem get?_answerOf_unauthorized {name : String} (h : name ≠ "allow") (resource : Resource)
    (method method' : String) :
    Keyed.get? name (answerOf resource method (fail .unauthorized)).headers =
      Keyed.get? name (answerOf resource method' (fail .unauthorized)).headers := by
  rw [headers_answerOf_unauthorized, headers_answerOf_unauthorized]
  split <;> split <;> simp only [Keyed.get?_insert_of_ne h]

/-- A question for the headers alone is told those of the answer in full. -/
theorem headers_answerOf_head (resource : Resource) :
    (answerOf resource "HEAD" (fail .unauthorized)).headers =
      (answerOf resource "GET" (fail .unauthorized)).headers := by
  simp only [headers_answerOf_unauthorized, Resource.head_mem_methods]

theorem length_answerOf_unauthorized (resource : Resource) (method : String) :
    Keyed.get? "content-length" (answerOf resource method (fail .unauthorized)).headers =
      some (toString (errorBody "unauthorized").text.utf8ByteSize) := by
  rw [get?_answerOf_unauthorized (by decide) resource method "GET"]
  unfold answerOf fail
  dsimp only
  rw [get?_withMethods (by decide), headers_finished, Keyed.get?_insert_self]
  rfl

/-- A refused request is told so whatever the store would do to its calls. -/
theorem answer_of_refused (board : Board) (b : Backend) (t : Table) {r : Request}
    (hoptions : r.method ≠ "OPTIONS") (hguarded : (Resource.ofTarget r.target).isGuarded = true)
    (hrejected : board.guard.admits r.headers = false) :
    board.answer b t r =
      (t, withOrigins board r
        (answerOf (Resource.ofTarget r.target) r.method (fail .unauthorized))) := by
  unfold answer
  rw [if_neg hoptions, outcome_of_guarded board b t hguarded hrejected]

/-! ## Runs -/

/-- Of a run, requests that are turned away may be left out: nothing else is answered otherwise. -/
theorem run_filter_rejected (board : Board) (b : Backend) (keep : Request → Bool)
    (hkeep : ∀ r, keep r = false → board.guard.admits r.headers = false) (t : Table)
    (rs : List Request) :
    board.run b t (rs.filter keep) =
      ((board.run b t rs).1,
        ((rs.zip (board.run b t rs).2).filter fun e => keep e.1).map (·.2)) := by
  induction rs generalizing t with
  | nil => rfl
  | cons r rest ih =>
      simp only [run_cons, List.zip_cons_cons, List.filter_cons]
      cases hr : keep r with
      | true => simp only [if_true, run_cons, ih, List.map_cons]
      | false =>
          have hsame : (board.answer b t r).1 = t := by
            rw [answer_of_rejected board b t t (hkeep r hr)]
          rw [hsame]
          simp only [Bool.false_eq_true, if_false, ih]

/--
**A request without the secret learns nothing and changes nothing.**  Given the settings of a board
and a second secret, with which they make a second board:

* the answer is the same on every table, and the table stays as it is;
* the answer is the same on both boards, if both turn the request away;
* unless other origins are asked about or the path is one of the three open ones, the answer is a
  bare refusal, and it is the same however the store treats its calls;
* the headers of such a refusal tell the length of the body that goes with it, also if that is left
  out; with another method they differ at most in the methods that are told, and with `HEAD` they
  are those with `GET`;
* leaving such requests out of a run changes no other answer and not the table in the end.
-/
theorem rejected_request_learns_and_changes_nothing {s : Settings} {secret other : String}
    {board board' : Board}
    (hboard : Board.ofSettings { s with apiKey := some secret } = .ok board)
    (hother : Board.ofSettings { s with apiKey := some other } = .ok board') (b : Backend) :
    (∀ r : Request, board.guard.admits r.headers = false →
      (∀ t t' : Table, board.answer b t r = (t, (board.answer b t' r).2)) ∧
      (board'.guard.admits r.headers = false →
        ∀ t t' : Table, (board'.answer b t r).2 = (board.answer b t' r).2) ∧
      (∀ uri : String, r.target = Target.ofText uri → r.method ≠ "OPTIONS" →
        r.target.path ∉ ["/", "/health", "/ready"] →
          ∀ t : Table,
            (board.answer b t r).2.status = 401 ∧
            (board.answer b t r).2.body =
              (if r.method = "HEAD" then "" else (errorBody "unauthorized").text) ∧
            Keyed.get? "content-length" (board.answer b t r).2.headers =
              some (toString (errorBody "unauthorized").text.utf8ByteSize) ∧
            (∀ method ≠ "OPTIONS", ∀ name ≠ "allow",
              Keyed.get? name (board.answer b t r).2.headers =
                Keyed.get? name (board.answer b t { r with method }).2.headers) ∧
            (r.method = "HEAD" →
              (board.answer b t r).2.headers =
                (board.answer b t { r with method := "GET" }).2.headers) ∧
            ∀ (b' : Backend) (t' : Table), board.answer b' t' r = (t', (board.answer b t r).2))) ∧
    (∀ (keep : Request → Bool) (t : Table) (rs : List Request),
      board.run b t (rs.filter fun r => board.guard.admits r.headers || keep r) =
        ((board.run b t rs).1,
          ((rs.zip (board.run b t rs).2).filter fun e =>
            board.guard.admits e.1.headers || keep e.1).map (·.2))) := by
  refine ⟨fun r hrejected => ⟨?_, ?_, ?_⟩, fun keep t rs => ?_⟩
  · intro t t'
    exact answer_of_rejected board b t t' hrejected
  · intro hrejected' t t'
    obtain ⟨digest, rfl⟩ := ofSettings_secret hboard hother
    rw [answer_withDigest board digest b t hrejected hrejected',
      answer_of_rejected board b t t' hrejected]
  · intro uri huri hoptions hpath t
    have hguarded : (Resource.ofTarget r.target).isGuarded = true := by
      rw [huri] at hpath ⊢
      exact isGuarded_of_path hpath
    obtain ⟨hstatus, hbody⟩ := answerOf_unauthorized (Resource.ofTarget r.target) r.method
    rw [answer_of_refused board b t hoptions hguarded hrejected]
    refine ⟨by rw [status_withOrigins, hstatus], by rw [body_withOrigins, hbody], ?_, ?_, ?_, ?_⟩
    · rw [get?_withOrigins_of_ne (by decide) (by decide), length_answerOf_unauthorized]
    · intro method hmethod name hname
      rw [answer_of_refused board b t (r := { r with method }) hmethod hguarded hrejected]
      exact get?_withOrigins_congr (get?_answerOf_unauthorized hname _ _ _) board r
    · intro hhead
      have hget : "GET" ≠ "OPTIONS" := by decide
      rw [answer_of_refused board b t (r := { r with method := "GET" }) hget hguarded hrejected,
        hhead]
      exact headers_withOrigins_congr (headers_answerOf_head _) board r
    · intro b' t'
      exact answer_of_refused board b' t' hoptions hguarded hrejected
  · refine run_filter_rejected board b _ ?_ t rs
    intro r hr
    exact (Bool.or_eq_false_iff.1 hr).1

/-- The board of settings that lay down nothing but a secret. -/
theorem ofSettings_secret_only (secret : String) (hsecret : Text.trim secret ≠ "") :
    Board.ofSettings { ({} : Settings) with apiKey := some secret } =
      .ok ⟨"stateboard", ⟨Sha256.digest (Utf8.encode secret), "x-api-key"⟩, {}, .any⟩ := by
  have hcheck : ({ ({} : Settings) with apiKey := some secret } : Settings).check = .ok () := by
    unfold Settings.check
    simp only [if_neg hsecret]
    rfl
  have hname : Http.headerName? "x-api-key" = some "x-api-key" := by decide
  obtain ⟨hisName, hlower⟩ := Http.headerName?_eq_some_iff.1 hname
  refine ofSettings_eq_ok_iff.2 ⟨hcheck, hisName, .any, .any (.inr List.mem_cons_self), ?_⟩
  rw [hlower]
  rfl

/-- A request without headers, for a record, under two secrets. -/
theorem bare_head_learns_and_changes_nothing :
    ∃ board board' : Board,
      Board.ofSettings { ({} : Settings) with apiKey := some "k" } = .ok board ∧
      Board.ofSettings { ({} : Settings) with apiKey := some "l" } = .ok board' ∧
      ∀ (b b' : Backend) (t t' : Table) (r : Request),
        r = ⟨"HEAD", Target.ofText "/state/a", [], [], 0, none⟩ →
          board.answer b t r = (t, (board.answer b t' r).2) ∧
          (board'.answer b t r).2 = (board.answer b t r).2 ∧
          (board.answer b t r).2.status = 401 ∧
          (board.answer b t r).2.headers =
            (board.answer b t { r with method := "GET" }).2.headers ∧
          board.answer b' t' r = (t', (board.answer b t r).2) := by
  refine ⟨_, _, ofSettings_secret_only "k" (by decide), ofSettings_secret_only "l" (by decide), ?_⟩
  intro b b' t t' r hr
  obtain ⟨hsame, hsecrets, hrefused⟩ :=
    (rejected_request_learns_and_changes_nothing (ofSettings_secret_only "k" (by decide))
      (ofSettings_secret_only "l" (by decide)) b).1 r (by rw [hr]; rfl)
  have hsecrets := hsecrets (by rw [hr]; rfl) t t
  obtain ⟨hstatus, -, -, -, hheaders, hbackend⟩ :=
    hrefused "/state/a" (by rw [hr]) (by rw [hr]; decide) (by rw [hr]; decide) t
  exact ⟨hsame t t', hsecrets, hstatus, hheaders (by rw [hr]), hbackend b' t'⟩

/-- An answer to `HEAD` has no body, the one of a refusal included. -/
theorem head_of_rejected_is_bare :
    ¬ ∀ (board : Board) (b : Backend) (t : Table) (r : Request) (uri : String),
      Board.ofSettings { ({} : Settings) with apiKey := some "k" } = .ok board →
      board.guard.admits r.headers = false → r.target = Target.ofText uri →
      r.method ≠ "OPTIONS" → r.target.path ∉ ["/", "/health", "/ready"] →
        (board.answer b t r).2.body = (errorBody "unauthorized").text := by
  intro h
  have hbody := h _ .direct .empty ⟨"HEAD", Target.ofText "/state", [], [], 0, none⟩ "/state"
    (ofSettings_secret_only "k" (by decide)) rfl rfl (by decide) (by decide)
  rw [answer_of_refused _ _ _ (by decide) (by decide) rfl, body_withOrigins,
    (answerOf_unauthorized _ _).2, if_pos rfl] at hbody
  exact absurd hbody (by decide)

end RecordBoard.Board
