import RecordBoard.Guard
import RecordBoard.Proofs.Http.Header

/-!
# What the guard lets through

A guard accepts the secret that it was made of, since it compares digests and a digest is like
itself. So a request that carries the secret in the header of the guard passes.

Digests are all of one length, so going through two of them octet by octet finds out whether they
are the same.  What is compared is at most one text from each of two headers, so a request passes if
and only if one of these texts has the digest of the secret; it then is the secret, unless the
digests of just these texts collide.

## Main definitions

* `IsBearer` — the value of an authorization header gives a token.
* `Presents` — a request comes with a text that may be the secret.

## Main results

* `accepts_secret` — a guard accepts its secret.
* `admits_of_header` — a request that carries it passes.
* `bearerToken?_eq_some_iff` — the token that is found in a value is the one that it gives.
* `admits_iff_exists_presented` — a request passes if it comes with a text that has the digest of
  the secret.
* `admits_iff_presents_secret` — a request passes if and only if it comes with the secret.
-/

namespace RecordBoard.Guard

theorem sameOctets_self (a : Bytes) : sameOctets a a = true := by
  unfold sameOctets
  induction a with
  | nil => rfl
  | cons b rest ih =>
    rw [List.zipWith_cons_cons, List.foldl_cons, UInt8.xor_self, UInt8.or_self]
    exact ih

/-- A guard accepts the secret that it was made of. -/
theorem accepts_secret (secret header : String) :
    (⟨Sha256.digest (Utf8.encode secret), header⟩ : Guard).accepts secret = true :=
  sameOctets_self _

/-- A request that carries the secret in the header of the guard passes. -/
theorem admits_of_header {secret header : String} {headers : Http.Headers}
    (h : headers.text? header = some secret) :
    (⟨Sha256.digest (Utf8.encode secret), header⟩ : Guard).admits headers = true := by
  unfold admits
  rw [h, Option.any_some, accepts_secret, Bool.true_or]

/-! ## Comparing digests -/

theorem foldl_or_eq_zero_iff {l : Bytes} {b : UInt8} :
    l.foldl (· ||| ·) b = 0 ↔ b = 0 ∧ ∀ c ∈ l, c = 0 := by
  induction l generalizing b with
  | nil => simp
  | cons c l ih => rw [List.foldl_cons, ih, UInt8.or_eq_zero_iff, List.forall_mem_cons, and_assoc]

/-- Octets of one length are the same if no two that meet differ. -/
theorem sameOctets_iff {a b : Bytes} (h : a.length = b.length) : sameOctets a b = true ↔ a = b := by
  unfold sameOctets
  rw [beq_iff_eq, foldl_or_eq_zero_iff, and_iff_right rfl]
  induction a generalizing b with
  | nil => simpa [eq_comm] using h
  | cons x a ih =>
    cases b with
    | nil => cases h
    | cons y b =>
      rw [List.zipWith_cons_cons, List.forall_mem_cons, ih (Nat.succ.inj h), UInt8.xor_eq_zero_iff,
        List.cons.injEq]

theorem length_digest (message : Bytes) : (Sha256.digest message).length = 32 := by
  simp [Sha256.digest, Sha256.bigEndian]

/-- A guard accepts the texts that have the digest of its secret. -/
theorem accepts_iff {g : Guard} {secret candidate : String}
    (h : g.digest = Sha256.digest (Utf8.encode secret)) :
    g.accepts candidate = true ↔ Sha256.digest (Utf8.encode candidate) =
      Sha256.digest (Utf8.encode secret) := by
  rw [accepts, h, sameOctets_iff]
  rw [length_digest, length_digest]

/-! ## What a request comes with -/

/-- The value of an authorization header gives a token: a word `bearer` in any case, a space, and
the token. -/
def IsBearer (value token : String) : Prop :=
  ∃ scheme rest, Text.trim value = scheme ++ " " ++ rest ∧ Http.lowerCase scheme = "bearer" ∧
    Text.trim rest = token ∧ token ≠ ""

/-- A request comes with a text that may be the secret. -/
inductive Presents (header : String) (headers : Http.Headers) (candidate : String) : Prop
  /-- It is what the headers say under the name that was configured. -/
  | own (h : headers.Says (Text.trim header) candidate)
  /-- It is the token of what they say under that of authorization. -/
  | bearer {value : String} (h : headers.Says "authorization" value)
    (htoken : IsBearer value candidate)

/-- There is no space in the word `bearer`, whatever its case. -/
theorem ne_space_of_lowerCase {scheme : String} (h : Http.lowerCase scheme = "bearer") :
    ∀ c ∈ scheme.toList, (c != ' ') = true := by
  intro c hc
  rw [bne_iff_ne]
  rintro rfl
  have hmem : Char.toLower ' ' ∈ "bearer".toList := by
    rw [← h, Http.lowerCase, String.toList_ofList]
    exact List.mem_map_of_mem hc
  exact absurd hmem (by decide)

theorem sameButCase_bearer_iff {scheme : String} :
    Http.sameButCase scheme "bearer" = true ↔ Http.lowerCase scheme = "bearer" := by
  rw [Http.sameButCase_iff, show Http.lowerCase "bearer" = "bearer" by decide]

/-- Where the first space of a value is known, so is the token. -/
theorem bearerToken?_of_split {value token : String} {word rest : List Char}
    (hword : (Text.trimChars value.toList).takeWhile (· != ' ') = word)
    (hrest : (Text.trimChars value.toList).dropWhile (· != ' ') = ' ' :: rest) :
    bearerToken? value = some token ↔
      Http.lowerCase (String.ofList word) = "bearer" ∧ String.ofList (Text.trimChars rest) = token ∧
      token ≠ "" := by
  unfold bearerToken?
  dsimp only
  rw [hrest, hword, ← sameButCase_bearer_iff]
  dsimp only
  constructor
  · intro h
    split at h
    next hbearer =>
      have htoken := Option.some.inj h
      rw [htoken] at hbearer
      exact ⟨hbearer.1, htoken, hbearer.2⟩
    next => cases h
  · rintro ⟨hscheme, htoken, hne⟩
    rw [htoken, if_pos ⟨hscheme, hne⟩]

/-- The token that is found in a value is the one that it gives. -/
theorem bearerToken?_eq_some_iff {value token : String} :
    bearerToken? value = some token ↔ IsBearer value token := by
  constructor
  · intro h
    have hwhole : (Text.trimChars value.toList).takeWhile (· != ' ') ++
        (Text.trimChars value.toList).dropWhile (· != ' ') = Text.trimChars value.toList :=
      List.takeWhile_append_dropWhile
    have hhead := List.head?_dropWhile_not (· != ' ') (Text.trimChars value.toList)
    generalize hword : (Text.trimChars value.toList).takeWhile (· != ' ') = word at hwhole
    cases hrest : (Text.trimChars value.toList).dropWhile (· != ' ') with
    | nil =>
      unfold bearerToken? at h
      dsimp only at h
      rw [hrest] at h
      cases h
    | cons c rest =>
      rw [hrest] at hwhole hhead
      have hspace : c = ' ' := by simpa using hhead
      subst hspace
      obtain ⟨hscheme, htoken, hne⟩ := (bearerToken?_of_split hword hrest).1 h
      refine ⟨String.ofList word, String.ofList rest, ?_, hscheme, ?_, hne⟩
      · apply String.toList_injective
        rw [Text.trim, String.toList_ofList, ← hwhole]
        simp
      · rw [Text.trim, String.toList_ofList, htoken]
  · rintro ⟨scheme, rest, hvalue, hscheme, htoken, hne⟩
    have hchars : Text.trimChars value.toList = scheme.toList ++ ' ' :: rest.toList := by
      have hlist := congrArg String.toList hvalue
      rw [Text.trim, String.toList_ofList] at hlist
      simpa using hlist
    have hvisible := ne_space_of_lowerCase hscheme
    have hword : (Text.trimChars value.toList).takeWhile (· != ' ') = scheme.toList := by
      rw [hchars, List.takeWhile_append_of_pos hvisible]
      simp
    have hrest : (Text.trimChars value.toList).dropWhile (· != ' ') = ' ' :: rest.toList := by
      rw [hchars, List.dropWhile_append_of_pos hvisible]
      rfl
    rw [bearerToken?_of_split hword hrest, String.ofList_toList]
    exact ⟨hscheme, htoken, hne⟩

/-! ## Who may pass -/

theorem any_accepts_iff {g : Guard} {secret : String}
    (h : g.digest = Sha256.digest (Utf8.encode secret)) {candidate? : Option String} :
    candidate?.any g.accepts = true ↔
      ∃ candidate, candidate? = some candidate ∧
        Sha256.digest (Utf8.encode candidate) = Sha256.digest (Utf8.encode secret) := by
  cases candidate? with
  | none => simp
  | some candidate => simp [accepts_iff h]

/-- A request passes if it comes with a text that has the digest of the secret. -/
theorem admits_iff_exists_presented {secret header : String} {g : Guard}
    (h : make? secret header = some g) (headers : Http.Headers) :
    g.admits headers = true ↔
      ∃ candidate, Presents header headers candidate ∧
        Sha256.digest (Utf8.encode candidate) = Sha256.digest (Utf8.encode secret) := by
  obtain ⟨name, hname, rfl⟩ := Option.map_eq_some_iff.1 h
  have hlower : name = Http.lowerCase (Text.trim header) := by
    unfold Http.headerName? at hname
    dsimp only at hname
    split at hname
    next => exact (Option.some.inj hname).symm
    next => cases hname
  subst hlower
  rw [admits, Bool.or_eq_true, any_accepts_iff rfl, any_accepts_iff rfl]
  constructor
  · rintro (⟨candidate, hsays, hdigest⟩ | ⟨candidate, htoken, hdigest⟩)
    · rw [Http.Headers.text?_eq_some_iff, Http.Headers.says_lowerCase_iff] at hsays
      exact ⟨candidate, .own hsays, hdigest⟩
    · obtain ⟨value, hsays, htoken⟩ := Option.bind_eq_some_iff.1 htoken
      rw [Http.Headers.text?_eq_some_iff] at hsays
      exact ⟨candidate, .bearer hsays (bearerToken?_eq_some_iff.1 htoken), hdigest⟩
  · rintro ⟨candidate, hpresents, hdigest⟩
    cases hpresents with
    | own hsays =>
      left
      rw [← Http.Headers.says_lowerCase_iff, ← Http.Headers.text?_eq_some_iff] at hsays
      exact ⟨candidate, hsays, hdigest⟩
    | bearer hsays htoken =>
      right
      rw [← Http.Headers.text?_eq_some_iff] at hsays
      exact ⟨candidate, Option.bind_eq_some_iff.2 ⟨_, hsays, bearerToken?_eq_some_iff.2 htoken⟩,
        hdigest⟩

/--
A request passes if and only if it comes with the secret: as the text of the first header with the
name that was configured, or as the token of the first authorization header.  The digests of the
texts that it comes with must not collide with that of the secret.
-/
theorem admits_iff_presents_secret {secret header : String} {g : Guard}
    (h : make? secret header = some g) {headers : Http.Headers}
    (hcollision : ∀ candidate, Presents header headers candidate →
      Sha256.digest (Utf8.encode candidate) = Sha256.digest (Utf8.encode secret) →
      candidate = secret) :
    g.admits headers = true ↔ Presents header headers secret := by
  rw [admits_iff_exists_presented h]
  constructor
  · rintro ⟨candidate, hpresents, hdigest⟩
    rwa [← hcollision candidate hpresents hdigest]
  · intro hpresents
    exact ⟨secret, hpresents, rfl⟩

/-- A wrong key in the first of two headers with the name that was configured, and a token. -/
def keyedHeaders : Http.Headers :=
  [("X-BOARD-TOKEN", Utf8.encode "hunter3"), ("x-board-token", Utf8.encode "hunter2"),
    ("AUTHORIZATION", Utf8.encode " BEARER \t hunter2 ")]

theorem token_admits_beside_wrong_key :
    ∃ g, make? "hunter2" "  X-Board-Token " = some g ∧ g.admits keyedHeaders = true := by
  have hkey : keyedHeaders.text? (Text.trim "  X-Board-Token ") = some "hunter3" := by
    decide +kernel
  have hvalue : keyedHeaders.text? "authorization" = some " BEARER \t hunter2 " := by decide +kernel
  have htoken : bearerToken? " BEARER \t hunter2 " = some "hunter2" := by decide +kernel
  have hdigest : Sha256.digest (Utf8.encode "hunter3") ≠ Sha256.digest (Utf8.encode "hunter2") := by
    decide +kernel
  have hmake : make? "hunter2" "  X-Board-Token " =
      some ⟨Sha256.digest (Utf8.encode "hunter2"), "x-board-token"⟩ := by
    rw [make?, show Http.headerName? "  X-Board-Token " = some "x-board-token" by decide +kernel]
    rfl
  refine ⟨_, hmake, (admits_iff_presents_secret hmake ?_).2 ?_⟩
  · intro candidate hpresents hcollides
    cases hpresents with
    | own hsays =>
      rw [← Http.Headers.text?_eq_some_iff, hkey] at hsays
      rw [← Option.some.inj hsays] at hcollides
      exact absurd hcollides hdigest
    | bearer hsays hgives =>
      rw [← Http.Headers.text?_eq_some_iff, hvalue] at hsays
      rw [← Option.some.inj hsays, ← bearerToken?_eq_some_iff, htoken] at hgives
      exact (Option.some.inj hgives).symm
  · exact .bearer (Http.Headers.text?_eq_some_iff.1 hvalue) (bearerToken?_eq_some_iff.1 htoken)

end RecordBoard.Guard
