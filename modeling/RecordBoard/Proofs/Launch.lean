import RecordBoard.Launch
import RecordBoard.Proofs.CommandLine
import RecordBoard.Proofs.Settings.File
import RecordBoard.Proofs.Text.Malformed

/-!
# Which settings are served

Settings lie in layers.  At the bottom is what holds from the start, over it the configuration file,
over that the environment, and flags on top.  A layer shows where the ones above it say nothing;
only the switches are different, since they can be put on but not off.  What shows in the end is
checked, and is served as it is or not at all.

## Main definitions

* `Underlies` — the settings below environment and flags.
* `IsLayered` — settings that show what is on top.

## Main results

* `fromFile_eq_ok_iff` — the settings that the configuration file gives.
* `settings_are_layered` — what a command line comes to.
-/

namespace RecordBoard.Launch

open CommandLine

/-! ## Layers -/

/-- The settings below environment and flags. -/
inductive Underlies (env : List (String × String)) (files : Files) (flags : List Flag) :
    Settings → Prop
  /-- No configuration file is named, and they are those from the start. -/
  | start (hnone : ∀ path, ¬ Chosen env flags .config path) : Underlies env files flags {}
  /-- They are those that the configuration file spells. -/
  | file {path text : String} {document : Toml.Entries} {s : Settings}
    (hpath : Chosen env flags .config path)
      (hcontent : files.content? (steps path) = some (Utf8.encode text))
      (hread : Toml.read? text = some document) (hspelt : Settings.IsSpelledBy document s) :
      Underlies env files flags s

/-- Settings show what is on top: what was chosen, and below it what lies there. -/
structure IsLayered (env : List (String × String)) (flags : List Flag) (below s : Settings) :
    Prop where
  /-- Requests come in where it was chosen, -/
  listen : ∀ value, Chosen env flags .listen value → SocketAddress.ofText? value = some s.listen
  /-- or else where it was laid down below. -/
  listen_below : (∀ value, ¬ Chosen env flags .listen value) → s.listen = below.listen
  /-- The table is kept where it was chosen, -/
  dataDir : ∀ value, Chosen env flags .dataDir value → s.dataDir = value
  /-- or else where it was laid down below. -/
  dataDir_below : (∀ value, ¬ Chosen env flags .dataDir value) → s.dataDir = below.dataDir
  /-- The secret is the one that was chosen, -/
  apiKey : ∀ value, Chosen env flags .apiKey value → s.apiKey = some value
  /-- or else the one that was laid down below. -/
  apiKey_below : (∀ value, ¬ Chosen env flags .apiKey value) → s.apiKey = below.apiKey
  /-- The table is kept in memory only if a flag or what lies below says so. -/
  inMemory : s.inMemory = true ↔ .inMemory ∈ flags ∨ below.inMemory = true
  /-- All the rest is as below. -/
  rest : s.serviceName = below.serviceName ∧ s.header = below.header ∧ s.origins = below.origins ∧
    s.limits = below.limits

section

variable {env : List (String × String)} {files : Files} {flags : List Flag}
  {inMemory logJson : Prop} {g : Given}

/-- There is one way to show what is on top. -/
theorem IsLayered.unique {below s s' : Settings} (h : IsLayered env flags below s)
    (h' : IsLayered env flags below s') :
    s = s' := by
  have hlisten : s.listen = s'.listen := by
    by_cases hchosen : ∃ value, Chosen env flags .listen value
    · obtain ⟨value, hvalue⟩ := hchosen
      exact Option.some.inj ((h.listen value hvalue).symm.trans (h'.listen value hvalue))
    · rw [h.listen_below (not_exists.1 hchosen), h'.listen_below (not_exists.1 hchosen)]
  have hdataDir : s.dataDir = s'.dataDir := by
    by_cases hchosen : ∃ value, Chosen env flags .dataDir value
    · obtain ⟨value, hvalue⟩ := hchosen
      rw [h.dataDir value hvalue, h'.dataDir value hvalue]
    · rw [h.dataDir_below (not_exists.1 hchosen), h'.dataDir_below (not_exists.1 hchosen)]
  have hapiKey : s.apiKey = s'.apiKey := by
    by_cases hchosen : ∃ value, Chosen env flags .apiKey value
    · obtain ⟨value, hvalue⟩ := hchosen
      rw [h.apiKey value hvalue, h'.apiKey value hvalue]
    · rw [h.apiKey_below (not_exists.1 hchosen), h'.apiKey_below (not_exists.1 hchosen)]
  have hinMemory : s.inMemory = s'.inMemory := Bool.eq_iff_iff.2 (h.inMemory.trans h'.inMemory.symm)
  obtain ⟨hname, hheader, horigins, hlimits⟩ := h.rest
  obtain ⟨hname', hheader', horigins', hlimits'⟩ := h'.rest
  cases s
  cases s'
  rw [Settings.mk.injEq]
  exact ⟨hlisten, hname.trans hname'.symm, hapiKey, hheader.trans hheader'.symm,
    horigins.trans horigins'.symm,
    hlimits.trans hlimits'.symm, hdataDir, hinMemory⟩

/-- What was given goes over what lies below. -/
theorem isLayered_overridden (hg : g.Reflects (Chosen env flags) (.inMemory ∈ flags) logJson)
    (below : Settings) :
    IsLayered env flags below (overridden g below) where
  listen value hvalue := by
    obtain ⟨address, haddress, hlisten⟩ := hg.holds .listen value hvalue
    rw [haddress, overridden, hlisten, Option.getD_some]
  listen_below hnone := by
    rw [overridden, Given.eq_none_of_isSome_eq_false (hg.lacks .listen hnone), Option.getD_none]
  dataDir value hvalue := by
    have hdataDir : g.dataDir = some value := hg.holds .dataDir value hvalue
    rw [overridden, hdataDir, Option.getD_some]
  dataDir_below hnone := by
    rw [overridden, Given.eq_none_of_isSome_eq_false (hg.lacks .dataDir hnone), Option.getD_none]
  apiKey value hvalue := by
    have hapiKey : g.apiKey = some value := hg.holds .apiKey value hvalue
    rw [overridden, hapiKey]
    rfl
  apiKey_below hnone := by
    rw [overridden, Given.eq_none_of_isSome_eq_false (hg.lacks .apiKey hnone)]
    rfl
  inMemory := by
    rw [overridden, Bool.or_eq_true, hg.inMemory_iff]
  rest := ⟨rfl, rfl, rfl, rfl⟩

/-- The settings in the configuration file are those that lie below environment and flags. -/
theorem fromFile_eq_ok_iff (hg : g.Reflects (Chosen env flags) inMemory logJson)
    {below : Settings} :
    fromFile files g = .ok below ↔ Underlies env files flags below := by
  have hchosen : ∀ path, Chosen env flags .config path → g.config = some path := hg.holds .config
  unfold fromFile
  cases hconfig : g.config with
  | none =>
    have hnone : ∀ path, ¬ Chosen env flags .config path := by
      intro path hpath
      rw [hchosen path hpath] at hconfig
      cases hconfig
    constructor
    · rintro ⟨⟩
      exact .start hnone
    · intro h
      cases h with
      | start => rfl
      | file hpath => exact absurd hpath (hnone _)
  | some path =>
    have hpath : Chosen env flags .config path := by
      have hhas : g.has .config = true := Option.isSome_of_eq_some hconfig
      obtain ⟨other, hother⟩ := (hg.has_iff .config).1 hhas
      cases hconfig.symm.trans (hchosen other hother)
      exact hother
    rw [Settings.ofFile_eq_ok_iff]
    constructor
    · rintro ⟨text, document, hcontent, hread, hspelt⟩
      exact .file hpath hcontent hread hspelt
    · intro h
      cases h with
      | start hnone => exact absurd hpath (hnone path)
      | file hother hcontent hread hspelt =>
        cases hconfig.symm.trans (hchosen _ hother)
        exact ⟨_, _, hcontent, hread, hspelt⟩

/-- If there are none, the file is missing, or it is no text, or it spells no settings. -/
theorem fault_of_fromFile {f : Settings.Fault} (h : fromFile files g = .error f) :
    f = .unreadable ∨ f = .malformed := by
  unfold fromFile at h
  split at h
  · cases h
  · exact Settings.fault_of_ofFile h

end

/-! ## What a command line comes to -/

section

variable {env : List (String × String)} {files : Files} {words : List String} {g : Given}
  (hparse : parse env words = .ok g)

include hparse

theorem prepare_eq : prepare env files words =
    ((settings files g).mapError .settings).map fun s => (s, g.logJson) := by
  unfold prepare
  rw [hparse]
  show ((settings files g).mapError Fault.settings >>= fun s => pure (s, g.logJson)) = _
  generalize settings files g = result
  cases result <;> rfl

theorem prepare_of_fault {f : Settings.Fault} (hfile : fromFile files g = .error f) :
    prepare env files words = .error (.settings f) := by
  have hsettings : settings files g = .error f := by
    rw [settings, hfile]
    rfl
  rw [prepare_eq hparse, hsettings]
  rfl

/-- What shows on top is served if it passes its check. -/
theorem prepare_of_fromFile {below : Settings} (hfile : fromFile files g = .ok below) :
    prepare env files words =
      ((overridden g below).check.mapError fun r => .settings (.refused r)).map fun _ =>
      (overridden g below, g.logJson) := by
  rw [prepare_eq hparse, settings, hfile]
  show (((overridden g below).check.mapError Settings.Fault.refused >>= fun _ =>
    pure (overridden g below)).mapError
    Fault.settings).map _ = _
  cases (overridden g below).check <;> rfl

end

/--
**Settings are layered.**  Let a command line have some flags, none of them twice, with values that
their options admit, in any order and written in either way.

* If the environment has such values for the options that no flag sets, the configuration file is
  the one that was chosen, by a flag or else in the environment.  If it spells settings, or none was
  chosen, what shows on top of these settings is served if it passes its check, and refused for what
  is found otherwise; the switch for the log says in which form it is written.  If it does not, that
  is told.
* The order of the flags does not matter.
-/
theorem settings_are_layered {flags : List Flag} {words : List String} (hwords : IsLine flags words)
    (hflags : ∀ f ∈ flags, f.IsWellFormed) (hnodup : (flags.map Flag.name).Nodup)
    (env : List (String × String)) (files : Files) :
    ((∀ o, (∀ w, ¬ Sets flags o w) → ∀ value, InEnvironment env o value → o.Admits value) →
      (∀ below, Underlies env files flags below →
        ∃ s logJson, (∀ other, IsLayered env flags below other ↔ other = s) ∧
          (logJson = true ↔ .logJson ∈ flags) ∧
          (prepare env files words = .ok (s, logJson) ↔ s.check = .ok ()) ∧
          ∀ r, s.check = .error r → prepare env files words = .error (.settings (.refused r))) ∧
      ((∀ below, ¬ Underlies env files flags below) →
        prepare env files words = .error (.settings .unreadable) ∨
          prepare env files words = .error (.settings .malformed))) ∧
    ∀ flags', flags.Perm flags' → ∀ words',
      IsLine flags' words' → prepare env files words' = prepare env files words := by
  constructor
  · intro henv
    obtain ⟨g, hparse, hg⟩ := exists_parse hflags hnodup hwords henv
    constructor
    · intro below hbelow
      have hfile := (fromFile_eq_ok_iff hg).2 hbelow
      have hlayered := isLayered_overridden hg below
      refine ⟨overridden g below, g.logJson, fun other =>
        ⟨fun hother => hother.unique hlayered, ?_⟩, hg.logJson_iff, ?_,
        fun r hcheck => ?_⟩
      · rintro rfl
        exact hlayered
      · rw [prepare_of_fromFile hparse hfile]
        cases (overridden g below).check <;> simp [Except.map, Except.mapError]
      · rw [prepare_of_fromFile hparse hfile, hcheck]
        rfl
    · intro hnone
      cases hfile : fromFile files g with
      | ok below => exact absurd ((fromFile_eq_ok_iff hg).1 hfile) (hnone below)
      | error f =>
        rw [prepare_of_fault hparse hfile]
        exact (fault_of_fromFile hfile).imp (fun hf => by rw [hf]) fun hf => by rw [hf]
  · intro flags' hperm words' hwords'
    unfold prepare
    rw [parse_eq_of_perm hflags hnodup env hwords hperm hwords']

/-- Three flags: two options, written in the two ways, and the switch for the log. -/
def threeFlags : List Flag :=
  [.logJson, .apart .listen "127.0.0.1:9000", .joined .config "etc/board.toml"]

/-- An environment that speaks of the same options, badly of one, and of a third. -/
def threeVariables : List (String × String) :=
  [("STATEBOARD_LISTEN", "nowhere"), ("STATEBOARD_CONFIG", "other.toml"),
   ("STATEBOARD_DATA_DIR", "/srv")]

/-- A text that lays down the secret, a directory and a switch. -/
def secretText : String :=
  "[auth]\napi_key = \"hunter2\"\n[store]\ndata_dir = \"/tmp\"\nin_memory = true\n"

/-- A configuration file with it. -/
def secretFile : Files := [("etc/board.toml", Utf8.encode secretText)]

/-- The settings that the file spells. -/
def secretSettings : Settings :=
  { ({} : Settings) with dataDir := "/tmp", apiKey := some "hunter2", inMemory := true }

/-- The address is the one of the flag, the directory the one of the environment, and the secret the
one of the file. -/
theorem three_layers_show :
    prepare threeVariables secretFile
        ["board", "serve", "--config=etc/board.toml", "--log-json", "--listen", "127.0.0.1:9000"] =
      .ok ({ secretSettings with listen := .short 127 0 0 1 9000, dataDir := "/srv" }, true) := by
  have hlisten : SocketAddress.ofText? "127.0.0.1:9000" = some (.short 127 0 0 1 9000) := by
    decide +kernel
  have hflags : ∀ f ∈ threeFlags, f.IsWellFormed := by
    simp [threeFlags, Flag.IsWellFormed, Opt.Admits, hlisten]
  have hdataDir : InEnvironment threeVariables .dataDir "/srv" :=
    ⟨threeVariables.take 2, [], rfl, by simp [threeVariables, Opt.inEnvironment]⟩
  have hunset : ∀ o, o = .dataDir ∨ o = .apiKey → ∀ value, ¬ Sets threeFlags o value := by
    rintro o (rfl | rfl) value <;> simp [Sets, threeFlags]
  have hnoKey : ∀ value, ¬ Chosen threeVariables threeFlags .apiKey value := by
    intro value hchosen
    cases hchosen with
    | flag h => exact hunset .apiKey (.inr rfl) value h
    | environment _ h =>
      obtain ⟨front, back, hvariables, -⟩ := h
      have hmem : (Opt.apiKey.inEnvironment, value) ∈ threeVariables := by
        rw [hvariables]
        simp
      simp [threeVariables, Opt.inEnvironment] at hmem
  have henv : ∀ o, (∀ w, ¬ Sets threeFlags o w) →
      ∀ value, InEnvironment threeVariables o value → o.Admits value := by
    intro o hnone value hvalue
    cases o with
    | config => exact absurd (.inr (by simp [threeFlags])) (hnone "etc/board.toml")
    | listen => exact absurd (.inl (by simp [threeFlags])) (hnone "127.0.0.1:9000")
    | dataDir =>
      rw [hvalue.unique hdataDir]
      exact (by decide : "/srv" ≠ "")
    | apiKey => trivial
  have hwords : IsLine threeFlags ["board", "--log-json", "serve", "--listen", "127.0.0.1:9000",
      "--config=etc/board.toml"] :=
    .around "board" [.apart .listen "127.0.0.1:9000", .joined .config "etc/board.toml"]
  have hwords' :
    IsLine [.joined .config "etc/board.toml", .logJson, .apart .listen "127.0.0.1:9000"]
      ["board", "serve", "--config=etc/board.toml", "--log-json", "--listen", "127.0.0.1:9000"] :=
    .behind "board" [.joined .config "etc/board.toml", .logJson, .apart .listen "127.0.0.1:9000"]
  obtain ⟨hserved, hperm⟩ :=
    settings_are_layered hwords hflags (by decide) threeVariables secretFile
  have hspelt : (Toml.read? secretText).bind Settings.ofEntries? = some secretSettings := by
    decide +kernel
  obtain ⟨document, hread, hspelt⟩ := Option.bind_eq_some_iff.1 hspelt
  have hpath : Chosen threeVariables threeFlags .config "etc/board.toml" :=
    .flag (.inr (by simp [threeFlags]))
  have hbelow : Underlies threeVariables secretFile threeFlags secretSettings :=
    .file hpath (by decide +kernel) hread (Settings.ofEntries?_eq_some_iff.1 hspelt)
  obtain ⟨s, logJson, hlayered, hlog, hserved, -⟩ := (hserved henv).1 secretSettings hbelow
  have hlayered := (hlayered s).2 rfl
  have hshown : s = { secretSettings with listen := .short 127 0 0 1 9000, dataDir := "/srv" } := by
    have haddress := hlayered.listen "127.0.0.1:9000" (.flag (.inl (by simp [threeFlags])))
    have hdirectory := hlayered.dataDir "/srv" (.environment (hunset .dataDir (.inl rfl)) hdataDir)
    have hkey := hlayered.apiKey_below hnoKey
    have hmemory := hlayered.inMemory.2 (.inr rfl)
    obtain ⟨hname, hheader, horigins, hlimits⟩ := hlayered.rest
    rw [hlisten, Option.some.injEq] at haddress
    cases s
    rw [Settings.mk.injEq]
    exact ⟨haddress.symm, hname, hkey, hheader, horigins, hlimits, hdirectory, hmemory⟩
  have hlog : logJson = true := hlog.2 (by simp [threeFlags])
  have hsame :
      threeFlags.Perm [.joined .config "etc/board.toml", .logJson,
        .apart .listen "127.0.0.1:9000"] :=
    (List.Perm.cons _ (.swap _ _ _)).trans (.swap _ _ _)
  rw [hperm _ hsame _ hwords', hserved.2 (by rw [hshown]; rfl), hshown, hlog]

end RecordBoard.Launch
