import Mathlib.Data.List.Nodup
import RecordBoard.CommandLine

/-!
# What a command line gives

Flags are read one after the other, and a value is looked at only once the next flag has come.  What
holds after each flag is that, the pending value being settled, what was given is what the flags so
far say.  So in the end all flags count, and since what was given follows from what the flags say,
their order does not.

The environment then fills up what no flag has set, one option after the other.

## Main definitions

* `Flag`, `Flag.words` — the flags, and the two ways to write an option.
* `Sets`, `Chosen` — the value that flags set, and the one that counts once the environment has been
  asked.
* `Given.Reflects` — what was given is what was said.
* `IsLine` — the words of a command line with some flags.

## Main results

* `serveWords_flags` — the words of flags give what the flags say.
* `withEnvironment_of_reflects` — the environment gives what no flag has set.
* `parse_of_isLine`, `parse_eq_of_perm` — what a command line gives, and that the order of its flags
  does not matter.
-/

namespace RecordBoard.CommandLine

/-! ## Values -/

/-- A text can be the value of an option: a path is not empty, and an address is one. -/
def Opt.Admits (value : String) : Opt → Prop
  | .config | .dataDir => value ≠ ""
  | .listen => ∃ address, SocketAddress.ofText? value = some address
  | .apiKey => True

namespace Given

/-- What was given has a value for an option. -/
def Holds (g : Given) (value : String) : Opt → Prop
  | .config => g.config = some value
  | .listen => ∃ address, SocketAddress.ofText? value = some address ∧ g.listen = some address
  | .dataDir => g.dataDir = some value
  | .apiKey => g.apiKey = some value

theorem Holds.has {g : Given} {o : Opt} {value : String} (h : g.Holds value o) :
    g.has o = true := by
  cases o with
  | listen =>
    obtain ⟨address, -, hgiven⟩ := h
    exact Option.isSome_of_eq_some hgiven
  | _ => exact Option.isSome_of_eq_some h

/-- What was given, with a value for an option in place of what it had. -/
def put (g : Given) (value : String) : Opt → Given
  | .config => { g with config := some value }
  | .listen => { g with listen := SocketAddress.ofText? value }
  | .dataDir => { g with dataDir := some value }
  | .apiKey => { g with apiKey := some value }

section

variable {g : Given} {o other : Opt} {value : String}

/-- A value that an option admits is assigned to it, if it has none. -/
theorem assign_eq_ok (hnew : g.has o = false) (hvalue : o.Admits value) :
    g.assign o value = .ok (g.put value o) := by
  unfold assign
  rw [hnew, if_neg Bool.false_ne_true]
  cases o with
  | config =>
    rw [show path value = .ok value from if_neg hvalue]
    rfl
  | listen =>
    obtain ⟨address, haddress⟩ := hvalue
    simp only [put, haddress]
  | dataDir =>
    rw [show path value = .ok value from if_neg hvalue]
    rfl
  | apiKey => rfl

/-- Whether a value is assigned depends on the option alone, and on whether it has one already. -/
theorem assign_cases (o : Opt) (value : String) (has : Bool) :
    (∃ r, ∀ g : Given, g.has o = has → g.assign o value = .error r) ∨
      ∀ g : Given, g.has o = has → g.assign o value = .ok (g.put value o) := by
  cases has with
  | true =>
    refine .inl ⟨.repeated, fun g hhas => ?_⟩
    unfold assign
    rw [if_pos hhas]
  | false =>
    by_cases hvalue : o.Admits value
    · exact .inr fun g hnew => assign_eq_ok hnew hvalue
    · refine .inl ?_
      cases o with
      | config =>
        refine ⟨.noValue, fun g hnew => ?_⟩
        rw [assign, hnew, if_neg Bool.false_ne_true, show path value =
          .error .noValue from if_pos (not_not.1 hvalue)]
        rfl
      | listen =>
        have hnone : SocketAddress.ofText? value = none :=
          Option.eq_none_iff_forall_ne_some.2 fun address haddress => hvalue ⟨address, haddress⟩
        refine ⟨.badValue, fun g hnew => ?_⟩
        rw [assign, hnew, if_neg Bool.false_ne_true]
        simp only [hnone]
      | dataDir =>
        refine ⟨.noValue, fun g hnew => ?_⟩
        rw [assign, hnew, if_neg Bool.false_ne_true, show path value =
          .error .noValue from if_pos (not_not.1 hvalue)]
        rfl
      | apiKey => exact absurd trivial hvalue

theorem holds_put (hvalue : o.Admits value) : (g.put value o).Holds value o := by
  cases o with
  | listen =>
    obtain ⟨address, haddress⟩ := hvalue
    exact ⟨address, haddress, haddress⟩
  | _ => exact rfl

/-- The other options keep what they had. -/
theorem holds_put_of_ne (h : other ≠ o) (w : String) :
    (g.put value o).Holds w other ↔ g.Holds w other := by
  cases o <;> cases other <;> first | exact absurd rfl h | exact Iff.rfl

theorem has_put_of_ne (h : other ≠ o) : (g.put value o).has other = g.has other := by
  cases o <;> cases other <;> first | exact absurd rfl h | rfl

@[simp] theorem inMemory_put : (g.put value o).inMemory = g.inMemory := by cases o <;> rfl

@[simp] theorem logJson_put : (g.put value o).logJson = g.logJson := by cases o <;> rfl

end

/-! ## What was said -/

theorem eq_none_of_isSome_eq_false {α : Type} {a : Option α} (h : a.isSome = false) : a = none :=
  Option.not_isSome_iff_eq_none.1 (Bool.eq_false_iff.1 h)

/-- What was given is what was said: values for options, and whether each switch is on. -/
structure Reflects (values : Opt → String → Prop) (inMemory logJson : Prop) (g : Given) : Prop where
  /-- It has the values that were said, -/
  holds : ∀ o value, values o value → g.Holds value o
  /-- and no others. -/
  lacks : ∀ o, (∀ value, ¬ values o value) → g.has o = false
  /-- The table is kept in memory only if that was said. -/
  inMemory_iff : g.inMemory = true ↔ inMemory
  /-- The log is written as JSON if that was said. -/
  logJson_iff : g.logJson = true ↔ logJson

namespace Reflects

variable {values values' : Opt → String → Prop} {inMemory inMemory' logJson logJson' : Prop}
  {g g' : Given}

/-- The same may be said in other words. -/
theorem congr (h : g.Reflects values inMemory logJson)
    (hvalues : ∀ o value, values o value ↔ values' o value) (hinMemory : inMemory ↔ inMemory')
    (hlogJson : logJson ↔ logJson') : g.Reflects values' inMemory' logJson' where
  holds o value hvalue := h.holds o value ((hvalues o value).2 hvalue)
  lacks o hnone := h.lacks o fun value hvalue => hnone value ((hvalues o value).1 hvalue)
  inMemory_iff := h.inMemory_iff.trans hinMemory
  logJson_iff := h.logJson_iff.trans hlogJson

theorem has_iff (h : g.Reflects values inMemory logJson) (o : Opt) :
    g.has o = true ↔ ∃ value, values o value := by
  constructor
  · intro hhas
    by_contra hnone
    rw [h.lacks o fun value hvalue => hnone ⟨value, hvalue⟩] at hhas
    cases hhas
  · rintro ⟨value, hvalue⟩
    exact (h.holds o value hvalue).has

/-- A value for an option that had none is put to what was given. -/
theorem put (h : g.Reflects values inMemory logJson) {o : Opt} {value : String}
    (hvalue : o.Admits value) :
    (g.put value o).Reflects (fun other w => (other = o ∧ w = value) ∨ (other ≠ o ∧ values other w))
      inMemory logJson where
  holds other w hsaid := by
    rcases hsaid with ⟨rfl, rfl⟩ | ⟨hother, hw⟩
    · exact holds_put hvalue
    · exact (holds_put_of_ne hother w).2 (h.holds other w hw)
  lacks other hnone := by
    have hother : other ≠ o := fun heq => hnone value (.inl ⟨heq, rfl⟩)
    rw [has_put_of_ne hother]
    exact h.lacks other fun w hw => hnone w (.inr ⟨hother, hw⟩)
  inMemory_iff := by rw [inMemory_put, h.inMemory_iff]
  logJson_iff := by rw [logJson_put, h.logJson_iff]

/-- The switches do not touch the values. -/
theorem withSwitches (h : g.Reflects values inMemory logJson) (b b' : Bool) :
    ({ g with inMemory := b, logJson := b' } : Given).Reflects values (b = true) (b' = true) where
  holds o value hvalue := by
    have hheld := h.holds o value hvalue
    cases o <;> exact hheld
  lacks o hnone := by
    have hlacks := h.lacks o hnone
    cases o <;> exact hlacks
  inMemory_iff := Iff.rfl
  logJson_iff := Iff.rfl

/-- There is one way to give what was said. -/
theorem eq (h : g.Reflects values inMemory logJson) (h' : g'.Reflects values inMemory logJson) :
    g = g' := by
  have hinMemory : g.inMemory = g'.inMemory :=
    Bool.eq_iff_iff.2 (h.inMemory_iff.trans h'.inMemory_iff.symm)
  have hlogJson : g.logJson = g'.logJson :=
    Bool.eq_iff_iff.2 (h.logJson_iff.trans h'.logJson_iff.symm)
  have hvalue : ∀ o, (∃ value, g.Holds value o ∧ g'.Holds value o) ∨
      (g.has o = false ∧ g'.has o = false) := by
    intro o
    by_cases hsaid : ∃ value, values o value
    · obtain ⟨value, hvalue⟩ := hsaid
      exact .inl ⟨value, h.holds o value hvalue, h'.holds o value hvalue⟩
    · have hnone : ∀ value, ¬ values o value := fun value hvalue => hsaid ⟨value, hvalue⟩
      exact .inr ⟨h.lacks o hnone, h'.lacks o hnone⟩
  have hnone : ∀ {α : Type} {a b : Option α}, a.isSome = false → b.isSome = false → a = b :=
    fun ha hb => (eq_none_of_isSome_eq_false ha).trans (eq_none_of_isSome_eq_false hb).symm
  have hconfig : g.config = g'.config := (hvalue .config).elim
    (fun ⟨_, hc, hc'⟩ => Eq.trans hc (Eq.symm hc')) (fun ⟨hc, hc'⟩ => hnone hc hc')
  have hlisten : g.listen = g'.listen := (hvalue .listen).elim
    (fun ⟨_, ⟨_, ha, hc⟩, ⟨_, ha', hc'⟩⟩ => hc.trans ((ha.symm.trans ha').trans hc'.symm))
    (fun ⟨hc, hc'⟩ => hnone hc hc')
  have hdataDir : g.dataDir = g'.dataDir := (hvalue .dataDir).elim
    (fun ⟨_, hc, hc'⟩ => Eq.trans hc (Eq.symm hc')) (fun ⟨hc, hc'⟩ => hnone hc hc')
  have hapiKey : g.apiKey = g'.apiKey := (hvalue .apiKey).elim
    (fun ⟨_, hc, hc'⟩ => Eq.trans hc (Eq.symm hc')) (fun ⟨hc, hc'⟩ => hnone hc hc')
  cases g
  cases g'
  simp only [Given.mk.injEq]
  exact ⟨hconfig, hlisten, hdataDir, hapiKey, hinMemory, hlogJson⟩

end Reflects

end Given

/-! ## Flags -/

/-- A flag on the command line. -/
inductive Flag where
  /-- An option, with its value in a word of its own. -/
  | apart (o : Opt) (value : String)
  /-- An option, with its value behind a sign of equality. -/
  | joined (o : Opt) (value : String)
  /-- The switch that keeps the table in memory only. -/
  | inMemory
  /-- The switch that writes the log as JSON. -/
  | logJson

namespace Flag

/-- The words that a flag is written with. -/
def words : Flag → List String
  | apart o value => ["--" ++ o.name, value]
  | joined o value => ["--" ++ o.name ++ "=" ++ value]
  | inMemory => ["--in-memory"]
  | logJson => ["--log-json"]

/-- What a flag is about. -/
def name : Flag → String
  | apart o _ | joined o _ => o.name
  | inMemory => "in-memory"
  | logJson => "log-json"

/-- A flag has a value that its option admits; one in a word of its own does not begin with a
dash. -/
def IsWellFormed : Flag → Prop
  | apart o value => o.Admits value ∧ value.toList.head? ≠ some '-'
  | joined o value => o.Admits value
  | inMemory | logJson => True

end Flag

/-- Some of the flags sets an option to a value. -/
def Sets (flags : List Flag) (o : Opt) (value : String) : Prop :=
  .apart o value ∈ flags ∨ .joined o value ∈ flags

/-- What was given is what flags say. -/
abbrev Given.ReflectsFlags (flags : List Flag) (g : Given) : Prop :=
  g.Reflects (Sets flags) (.inMemory ∈ flags) (.logJson ∈ flags)

/-! ## Words -/

theorem ofName?_name (o : Opt) : Opt.ofName? o.name = some o := by
  cases o <;> rfl

theorem ofText_name (o : Opt) : Word.ofText ("--" ++ o.name) = .long o.name none := by
  cases o <;> rfl

/-- The value begins behind the first sign of equality. -/
theorem ofText_of_split {s name value : String}
    (hs : s.toList = '-' :: '-' :: (name.toList ++ '=' :: value.toList)) (hsome : name.toList ≠ [])
    (hname : ∀ c ∈ name.toList, (c != '=') = true) :
    Word.ofText s = .long name (some value) := by
  have htake : (name.toList ++ '=' :: value.toList).takeWhile (· != '=') = name.toList := by
    rw [List.takeWhile_append_of_pos hname]
    simp
  have hdrop : (name.toList ++ '=' :: value.toList).dropWhile (· != '=') = '=' :: value.toList := by
    rw [List.dropWhile_append_of_pos hname]
    rfl
  unfold Word.ofText
  rw [hs]
  split
  next heq => simp [hsome] at heq
  next rest _ heq =>
    cases heq
    rw [htake, hdrop]
    simp
  next hdash heq => exact absurd (List.cons.inj (List.cons.inj heq).2).1.symm hdash
  next hnone => exact (hnone _ _ rfl).elim

theorem ofText_joined (o : Opt) (value : String) :
    Word.ofText ("--" ++ o.name ++ "=" ++ value) = .long o.name (some value) := by
  have hname : o.name.toList.all (· != '=') = true := by cases o <;> decide
  refine ofText_of_split ?_ (by cases o <;> decide) (List.all_eq_true.1 hname)
  simp

/-- A word that does not begin with a dash is no flag. -/
theorem ofText_plain {value : String} (h : value.toList.head? ≠ some '-') :
    Word.ofText value = .plain value := by
  unfold Word.ofText
  split
  next heq => exact absurd (congrArg List.head? heq) h
  next heq => exact absurd (congrArg List.head? heq) h
  next heq => exact absurd (congrArg List.head? heq) h
  next => rfl

/-! ## The words behind the command -/

section

variable {g g₁ : Given} {pending : Pending} (hsettled : settle g pending = .ok g₁)
  (rest : List String)

include hsettled

theorem serveWords_apart {o : Opt} {value : String} (hvalue : value.toList.head? ≠ some '-') :
    serveWords g pending (("--" ++ o.name) :: value :: rest) =
      serveWords g₁ (.held o value) rest := by
  rw [serveWords, ofText_name]
  dsimp only
  rw [ofName?_name]
  dsimp only
  rw [hsettled]
  show serveWords g₁ (.awaited o) (value :: rest) = _
  rw [serveWords, ofText_plain hvalue]

theorem serveWords_joined {o : Opt} {value : String} {g₂ : Given}
    (hassigned : g₁.assign o value = .ok g₂) :
    serveWords g pending (("--" ++ o.name ++ "=" ++ value) :: rest) = serveWords g₂ .none rest := by
  rw [serveWords, ofText_joined]
  dsimp only
  rw [ofName?_name]
  dsimp only
  rw [hsettled]
  show (g₁.assign o value >>= fun g => serveWords g .none rest) = _
  rw [hassigned]
  rfl

theorem serveWords_inMemory (hnew : g₁.inMemory = false) :
    serveWords g pending ("--in-memory" :: rest) =
      serveWords { g₁ with inMemory := true } .none rest := by
  have hword : Word.ofText "--in-memory" = .long "in-memory" none := rfl
  have hname : Opt.ofName? "in-memory" = none := rfl
  rw [serveWords, hword]
  dsimp only
  rw [hname]
  dsimp only
  rw [if_pos rfl, hsettled]
  show (if g₁.inMemory = true then _ else _) = _
  rw [hnew, if_neg Bool.false_ne_true]

theorem serveWords_logJson (hnew : g₁.logJson = false) :
    serveWords g pending ("--log-json" :: rest) =
      serveWords { g₁ with logJson := true } .none rest := by
  have hword : Word.ofText "--log-json" = .long "log-json" none := rfl
  have hname : Opt.ofName? "log-json" = none := rfl
  rw [serveWords, hword]
  dsimp only
  rw [hname]
  dsimp only
  rw [if_neg (by decide), if_pos rfl, hsettled]
  show (if g₁.logJson = true then _ else _) = _
  rw [hnew, if_neg Bool.false_ne_true]

end

section

variable {taken : List Flag} {flag : Flag} {g : Given}

/-- A flag about an option that none was about sets it. -/
theorem sets_concat_iff {o : Opt} {value : String} (hunset : ∀ w, ¬ Sets taken o w)
    (hflag : flag = .apart o value ∨ flag = .joined o value) (other : Opt) (w : String) :
    (other = o ∧ w = value) ∨ (other ≠ o ∧ Sets taken other w) ↔
      Sets (taken ++ [flag]) other w := by
  have hsets : Sets (taken ++ [flag]) other w ↔ Sets taken other w ∨ (other = o ∧ w = value) := by
    unfold Sets
    rcases hflag with rfl | rfl <;> simp [or_assoc, or_comm, or_left_comm]
  rw [hsets]
  by_cases hsame : other = o
  · subst hsame
    simp [hunset w]
  · simp [hsame]

theorem not_sets_of_name {o : Opt} (hnew : ∀ f ∈ taken, f.name ≠ o.name) (w : String) :
    ¬ Sets taken o w := by
  rintro (h | h)
  · exact hnew _ h rfl
  · exact hnew _ h rfl

/-- A flag for an option adds its value to what flags say. -/
theorem reflectsFlags_put (hg : g.ReflectsFlags taken) {o : Opt} {value : String}
    (hunset : ∀ w, ¬ Sets taken o w) (hvalue : o.Admits value)
    (hflag : flag = .apart o value ∨ flag = .joined o value) :
    (g.put value o).ReflectsFlags (taken ++ [flag]) := by
  refine (hg.put hvalue).congr (sets_concat_iff hunset hflag) ?_ ?_ <;>
    rcases hflag with rfl | rfl <;> simp

/--
A flag that is about something new is taken up: the words behind it go on from where what was given,
the pending value being settled, is what all flags up to it say.
-/
theorem exists_serveWords {g₀ : Given} {pending : Pending} (hsettled : settle g₀ pending = .ok g)
    (hg : g.ReflectsFlags taken) (hnew : ∀ f ∈ taken, f.name ≠ flag.name)
    (hflag : flag.IsWellFormed) (rest : List String) :
    ∃ g₀' pending' g', serveWords g₀ pending (flag.words ++ rest) = serveWords g₀' pending' rest ∧
      settle g₀' pending' = .ok g' ∧ g'.ReflectsFlags (taken ++ [flag]) := by
  cases flag with
  | apart o value =>
    have hunset := not_sets_of_name hnew
    exact ⟨g, .held o value, g.put value o, serveWords_apart hsettled rest hflag.2,
      Given.assign_eq_ok (hg.lacks o hunset) hflag.1,
        reflectsFlags_put hg hunset hflag.1 (.inl rfl)⟩
  | joined o value =>
    have hunset := not_sets_of_name hnew
    have hassigned := Given.assign_eq_ok (hg.lacks o hunset) hflag
    exact ⟨g.put value o, .none, g.put value o, serveWords_joined hsettled rest hassigned, rfl,
      reflectsFlags_put hg hunset hflag (.inr rfl)⟩
  | inMemory =>
    have hoff : g.inMemory = false := by
      rw [← Bool.not_eq_true, hg.inMemory_iff]
      exact fun h => hnew _ h rfl
    refine ⟨_, .none, _, serveWords_inMemory hsettled rest hoff, rfl,
      (hg.withSwitches true g.logJson).congr ?_ ?_ ?_⟩
    · simp [Sets]
    · simp
    · simp [hg.logJson_iff]
  | logJson =>
    have hoff : g.logJson = false := by
      rw [← Bool.not_eq_true, hg.logJson_iff]
      exact fun h => hnew _ h rfl
    refine ⟨_, .none, _, serveWords_logJson hsettled rest hoff, rfl,
      (hg.withSwitches g.inMemory true).congr ?_ ?_ ?_⟩
    · simp [Sets]
    · simp [hg.inMemory_iff]
    · simp

end

/-- The words of flags, none of which is about the same as another, give what the flags say. -/
theorem serveWords_flags {flags : List Flag} (hflags : ∀ f ∈ flags, f.IsWellFormed)
    {taken : List Flag} {g₀ g : Given} {pending : Pending} (hsettled : settle g₀ pending = .ok g)
    (hg : g.ReflectsFlags taken) (hnodup : ((taken ++ flags).map Flag.name).Nodup) :
    ∃ g', serveWords g₀ pending (flags.flatMap Flag.words) = .ok g' ∧
    g'.ReflectsFlags (taken ++ flags) := by
  induction flags generalizing taken g₀ g pending with
  | nil =>
    rw [List.append_nil]
    exact ⟨g, hsettled, hg⟩
  | cons flag flags ih =>
    obtain ⟨hflag, hflags⟩ := List.forall_mem_cons.1 hflags
    have hnew : ∀ f ∈ taken, f.name ≠ flag.name := by
      intro f hf hsame
      rw [List.map_append, List.nodup_append] at hnodup
      exact hnodup.2.2 _ (List.mem_map_of_mem hf) _ (List.mem_map_of_mem List.mem_cons_self) hsame
    obtain ⟨g₀', pending', g', hwords, hsettled', hg'⟩ :=
      exists_serveWords hsettled hg hnew hflag (flags.flatMap Flag.words)
    have hassoc : taken ++ flag :: flags = taken ++ [flag] ++ flags := by simp
    rw [hassoc] at hnodup ⊢
    rw [List.flatMap_cons, hwords]
    exact ih hflags hsettled' hg' hnodup

/-! ## The environment -/

/-- The environment has a value for an option, the first under its name. -/
def InEnvironment (env : List (String × String)) (o : Opt) (value : String) : Prop :=
  ∃ front back, env = front ++ (o.inEnvironment, value) :: back ∧ ∀ e ∈ front, e.1 ≠ o.inEnvironment

/-- The value of an option that was said, or else the one in the environment, if it has been asked
for the option. -/
def Filled (env : List (String × String)) (values : Opt → String → Prop) (asked : List Opt)
    (o : Opt) (value : String) : Prop :=
  values o value ∨ (o ∈ asked ∧ (∀ w, ¬ values o w) ∧ InEnvironment env o value)

section

variable {env : List (String × String)} {values : Opt → String → Prop} {inMemory logJson : Prop}
  {g : Given}
  {asked : List Opt} {o : Opt}

theorem inEnvironment_iff {value : String} :
    InEnvironment env o value ↔ ∃ e, (env.find? fun e => e.1 == o.inEnvironment) = some e ∧
    e.2 = value := by
  constructor
  · rintro ⟨front, back, henv, hfront⟩
    refine ⟨(o.inEnvironment, value), List.find?_eq_some_iff_append.2
      ⟨beq_self_eq_true _, front, back, henv, ?_⟩, rfl⟩
    intro e he
    simpa using hfront e he
  · rintro ⟨⟨name, _⟩, hfind, rfl⟩
    obtain ⟨hname, front, back, henv, hfront⟩ := List.find?_eq_some_iff_append.1 hfind
    have hname : name = o.inEnvironment := by simpa using hname
    subst hname
    exact ⟨front, back, henv, fun e he => by simpa using hfront e he⟩

theorem InEnvironment.unique {value w : String} (h : InEnvironment env o value)
    (h' : InEnvironment env o w) :
    value = w := by
  obtain ⟨e, hfind, rfl⟩ := inEnvironment_iff.1 h
  obtain ⟨e', hfind', rfl⟩ := inEnvironment_iff.1 h'
  cases hfind.symm.trans hfind'
  rfl

/-- The environment is not asked about an option that was given. -/
theorem ask_of_has (h : g.has o = true) : ask env g o = .ok g := by
  unfold ask
  rw [if_pos h]

theorem ask_of_absent (hnone : ∀ value, ¬ InEnvironment env o value) : ask env g o = .ok g := by
  have hfind : (env.find? fun e => e.1 == o.inEnvironment) = none := by
    refine Option.eq_none_iff_forall_ne_some.2 fun e he => ?_
    exact hnone e.2 (inEnvironment_iff.2 ⟨e, he, rfl⟩)
  unfold ask
  rw [hfind, ite_self]

theorem ask_of_inEnvironment (hnew : g.has o = false) {value : String}
    (h : InEnvironment env o value) :
    ask env g o = g.assign o value := by
  obtain ⟨e, hfind, rfl⟩ := inEnvironment_iff.1 h
  unfold ask
  rw [hnew, if_neg Bool.false_ne_true, hfind]

/-- Once the environment has been asked, what was given has its value for the option, unless one was
said. -/
theorem exists_ask (hg : g.Reflects (Filled env values asked) inMemory logJson) (hnew : o ∉ asked)
    (henv : (∀ w, ¬ values o w) → ∀ value, InEnvironment env o value → o.Admits value) :
    ∃ g',
      ask env g o = .ok g' ∧ g'.Reflects (Filled env values (asked ++ [o])) inMemory logJson := by
  have hother : ∀ {other w},
      other ≠ o → (Filled env values asked other w ↔ Filled env values (asked ++ [o]) other w) := by
    intro other w hne
    simp [Filled, hne]
  have hbefore : ∀ w, Filled env values asked o w ↔ values o w := by
    intro w
    simp [Filled, hnew]
  have hafter : ∀ w, Filled env values (asked ++ [o]) o w ↔
      values o w ∨ ((∀ w, ¬ values o w) ∧ InEnvironment env o w) := by
    intro w
    simp [Filled]
  -- Only the option that is asked about can have another value afterwards.
  have hkept : (∀ w, values o w ↔ values o w ∨ ((∀ w, ¬ values o w) ∧ InEnvironment env o w)) →
      g.Reflects (Filled env values (asked ++ [o])) inMemory logJson := by
    refine fun hsame => hg.congr (fun other w => ?_) Iff.rfl Iff.rfl
    by_cases hne : other = o
    · subst hne
      rw [hbefore, hafter]
      exact hsame w
    · exact hother hne
  by_cases hset : ∃ w, values o w
  · obtain ⟨w, hw⟩ := hset
    refine ⟨g, ask_of_has ((hg.has_iff o).2 ⟨w, .inl hw⟩), hkept fun v => ?_⟩
    exact ⟨.inl, fun h => h.elim id fun hnone => absurd hw (hnone.1 w)⟩
  · have hunset : ∀ w, ¬ values o w := fun w hw => hset ⟨w, hw⟩
    by_cases hfound : ∃ value, InEnvironment env o value
    · obtain ⟨value, hvalue⟩ := hfound
      have hlacks : g.has o = false := hg.lacks o fun w hw => hunset w ((hbefore w).1 hw)
      have hadmits := henv hunset value hvalue
      refine ⟨g.put value o, ?_, (hg.put hadmits).congr (fun other w => ?_) Iff.rfl Iff.rfl⟩
      · rw [ask_of_inEnvironment hlacks hvalue, Given.assign_eq_ok hlacks hadmits]
      · by_cases hne : other = o
        · subst hne
          rw [hafter]
          constructor
          · rintro (⟨-, rfl⟩ | ⟨hother, -⟩)
            · exact .inr ⟨hunset, hvalue⟩
            · exact absurd rfl hother
          · rintro (hw | ⟨-, hw⟩)
            · exact absurd hw (hunset w)
            · exact .inl ⟨rfl, hw.unique hvalue⟩
        · rw [← hother hne]
          simp [hne]
    · have habsent : ∀ value, ¬ InEnvironment env o value :=
        fun value hvalue => hfound ⟨value, hvalue⟩
      refine ⟨g, ask_of_absent habsent, hkept fun w => ?_⟩
      exact ⟨.inl, fun h => h.elim id fun hfound => absurd hfound.2 (habsent w)⟩

/-- So it goes on, one option after the other. -/
theorem exists_foldlM_ask {todo : List Opt}
    (hg : g.Reflects (Filled env values asked) inMemory logJson) (hnodup : (asked ++ todo).Nodup)
    (henv : ∀ o, (∀ w, ¬ values o w) → ∀ value, InEnvironment env o value → o.Admits value) :
    ∃ g', todo.foldlM (ask env) g = .ok g' ∧
    g'.Reflects (Filled env values (asked ++ todo)) inMemory logJson := by
  induction todo generalizing asked g with
  | nil =>
    rw [List.append_nil]
    exact ⟨g, rfl, hg⟩
  | cons o todo ih =>
    have hnew : o ∉ asked :=
      fun ho => (List.nodup_append.1 hnodup).2.2 o ho o List.mem_cons_self rfl
    obtain ⟨g', hask, hg'⟩ := exists_ask hg hnew (henv o)
    have hassoc : asked ++ o :: todo = asked ++ [o] ++ todo := by simp
    rw [hassoc] at hnodup ⊢
    rw [List.foldlM_cons, hask]
    exact ih hg' hnodup

/-- The environment gives what was not said. -/
theorem withEnvironment_of_reflects (hg : g.Reflects values inMemory logJson)
    (henv : ∀ o, (∀ w, ¬ values o w) → ∀ value, InEnvironment env o value → o.Admits value) :
    ∃ g', withEnvironment env g = .ok g' ∧
      g'.Reflects (fun o value => values o value ∨
        ((∀ w, ¬ values o w) ∧ InEnvironment env o value)) inMemory logJson := by
  have hstart : g.Reflects (Filled env values []) inMemory logJson :=
    hg.congr (fun o w => by simp [Filled]) Iff.rfl Iff.rfl
  have hnodup : ([] ++ Opt.all).Nodup := by decide
  obtain ⟨g', hfold, hg'⟩ := exists_foldlM_ask hstart hnodup henv
  have hall : ∀ o, o ∈ Opt.all := fun o => by cases o <;> decide
  exact ⟨g', hfold, hg'.congr (fun o w => by simp [Filled, hall]) Iff.rfl Iff.rfl⟩

/-- The environment has no say in the form of the log. -/
theorem withEnvironment_logJson (env : List (String × String)) (g : Given) :
    withEnvironment env { g with logJson := true } =
      (withEnvironment env g).map fun given => { given with logJson := true } := by
  have hhas : ∀ (g : Given) o, ({ g with logJson := true } : Given).has o = g.has o := by
    intro g o
    cases o <;> rfl
  have hput : ∀ (g : Given) o value,
      ({ g with logJson := true } : Given).put value o =
        { g.put value o with logJson := true } := by
    intro g o value
    cases o <;> rfl
  have hask : ∀ (g : Given) o, ask env { g with logJson := true } o =
      (ask env g o).map fun given => { given with logJson := true } := by
    intro g o
    unfold ask
    rw [hhas]
    split
    next e _ =>
      rcases Given.assign_cases o e.2 (g.has o) with ⟨r, hfails⟩ | hassigns
      · rw [hfails g rfl, hfails _ (hhas g o)]
        rfl
      · rw [hassigns g rfl, hassigns _ (hhas g o), hput]
        rfl
    · rfl
  have hfold : ∀ (todo : List Opt) (g : Given), todo.foldlM (ask env) { g with logJson := true } =
      (todo.foldlM (ask env) g).map fun given => { given with logJson := true } := by
    intro todo
    induction todo with
    | nil => exact fun _ => rfl
    | cons o todo ih =>
      intro g
      rw [List.foldlM_cons, List.foldlM_cons, hask]
      cases ask env g o with
      | error r => rfl
      | ok g' => exact ih g'
  exact hfold Opt.all g

end

/-! ## The whole line -/

/-- The words of a command line: the name of the program, the command, and flags. -/
inductive IsLine : List Flag → List String → Prop
  /-- All flags stand behind the command. -/
  | behind (program : String) (flags : List Flag) :
    IsLine flags (program :: "serve" :: flags.flatMap Flag.words)
  /-- The switch for the log stands in front of it. -/
  | around (program : String) (flags : List Flag) :
      IsLine (.logJson :: flags) (program :: "--log-json" :: "serve" :: flags.flatMap Flag.words)

/-- The value of an option that counts. -/
inductive Chosen (env : List (String × String)) (flags : List Flag) (o : Opt) (value : String) :
    Prop
  /-- A flag sets it. -/
  | flag (h : Sets flags o value)
  /-- No flag sets the option, and the environment has the value. -/
  | environment (hunset : ∀ w, ¬ Sets flags o w) (h : InEnvironment env o value)

theorem chosen_iff {env : List (String × String)} {flags : List Flag} {o : Opt} {value : String} :
    Chosen env flags o value ↔ Sets flags o value ∨
    ((∀ w, ¬ Sets flags o w) ∧ InEnvironment env o value) := by
  constructor
  · rintro (h | ⟨hunset, h⟩)
    · exact .inl h
    · exact .inr ⟨hunset, h⟩
  · rintro (h | ⟨hunset, h⟩)
    · exact .flag h
    · exact .environment hunset h

/-- Nothing was given before the first word. -/
theorem reflectsFlags_nil : ({} : Given).ReflectsFlags [] where
  holds o value h := by simp [Sets] at h
  lacks o _ := by cases o <;> rfl
  inMemory_iff := by simp
  logJson_iff := by simp

theorem settle_nothing : settle {} .none = .ok {} := rfl

theorem programWords_serve (env : List (String × String)) (logJson : Bool) (rest : List String) :
    programWords env logJson ("serve" :: rest) =
      (serveWords {} .none rest >>= withEnvironment env).map fun g =>
      { g with logJson := g.logJson || logJson } := by
  unfold programWords
  rw [if_pos rfl]
  cases serveWords {} .none rest with
  | error r => rfl
  | ok g =>
    show (withEnvironment env g >>= _) = (withEnvironment env g).map _
    cases withEnvironment env g <;> rfl

theorem programWords_logJson (env : List (String × String)) (rest : List String) :
    programWords env false ("--log-json" :: rest) = programWords env true rest := by
  have hword : Word.ofText "--log-json" = .long "log-json" none := rfl
  conv => lhs; unfold programWords
  rw [if_neg (by decide), if_neg (by decide), hword]
  rfl

section

variable {flags : List Flag} {words : List String} (hflags : ∀ f ∈ flags, f.IsWellFormed)
  (hnodup : (flags.map Flag.name).Nodup)

include hflags hnodup

/-- A command line gives what its flags say, and then the environment is asked. -/
theorem parse_of_isLine (env : List (String × String)) (hwords : IsLine flags words) :
    ∃ g, parse env words = withEnvironment env g ∧ g.ReflectsFlags flags := by
  cases hwords with
  | behind program =>
    obtain ⟨g, hserve, hg⟩ := serveWords_flags hflags settle_nothing reflectsFlags_nil hnodup
    refine ⟨g, ?_, hg⟩
    rw [parse, List.drop_one, List.tail_cons, programWords_serve, hserve]
    show (withEnvironment env g).map (fun g => { g with logJson := g.logJson || false }) = _
    cases withEnvironment env g with
    | error r => rfl
    | ok g' => simp only [Except.map, Bool.or_false]
  | around program flags =>
    obtain ⟨-, hflags⟩ := List.forall_mem_cons.1 hflags
    rw [List.map_cons, List.nodup_cons] at hnodup
    obtain ⟨g, hserve, hg⟩ := serveWords_flags hflags settle_nothing reflectsFlags_nil hnodup.2
    refine ⟨{ g with logJson := true }, ?_, (hg.withSwitches g.inMemory true).congr ?_ ?_ ?_⟩
    · rw [parse, List.drop_one, List.tail_cons, programWords_logJson, programWords_serve, hserve,
        withEnvironment_logJson]
      show (withEnvironment env g).map (fun g => { g with logJson := g.logJson || true }) = _
      simp only [Bool.or_true]
    · simp [Sets]
    · simp [hg.inMemory_iff]
    · simp

/-- The order of the flags does not matter, nor on which side of the command the switch for the log
stands. -/
theorem parse_eq_of_perm (env : List (String × String)) (hwords : IsLine flags words)
    {flags' : List Flag} (hperm : flags.Perm flags') {words' : List String}
    (hwords' : IsLine flags' words') :
    parse env words' = parse env words := by
  obtain ⟨g, hparse, hg⟩ := parse_of_isLine hflags hnodup env hwords
  obtain ⟨g', hparse', hg'⟩ := parse_of_isLine (fun f hf => hflags f (hperm.mem_iff.2 hf))
    ((hperm.map Flag.name).nodup_iff.1 hnodup) env hwords'
  have hsame : g'.ReflectsFlags flags :=
    hg'.congr (fun o w => by simp [Sets, hperm.mem_iff]) hperm.mem_iff.symm hperm.mem_iff.symm
  rw [hparse, hparse', hsame.eq hg]

/-- A command line gives what its flags say and what the environment says about the other
options. -/
theorem exists_parse {env : List (String × String)} (hwords : IsLine flags words)
    (henv : ∀ o, (∀ w, ¬ Sets flags o w) → ∀ value, InEnvironment env o value → o.Admits value) :
    ∃ g, parse env words = .ok g ∧ g.Reflects (Chosen env flags) (.inMemory ∈ flags)
      (.logJson ∈ flags) := by
  obtain ⟨g, hparse, hg⟩ := parse_of_isLine hflags hnodup env hwords
  obtain ⟨g', henvironment, hg'⟩ := withEnvironment_of_reflects hg henv
  exact ⟨g', hparse.trans henvironment, hg'.congr (fun o w => chosen_iff.symm) Iff.rfl Iff.rfl⟩

end

end RecordBoard.CommandLine
