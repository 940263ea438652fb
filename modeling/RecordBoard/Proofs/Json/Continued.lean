import RecordBoard.Proofs.Json.Numeral
import RecordBoard.Proofs.Json.Quoted
import RecordBoard.Proofs.Json.Reading

/-!
# Texts that go on

A reader that has found what it was after has left the rest of the text alone.  So it finds the same
in a longer text, with the addition behind its rest, and more fuel and more room for brackets do not
make a difference either.  Only a numeral at the very end of a text could be taken further, which is
why the addition must begin with an octet that ends a value.

The five readers of values are treated together, by induction on the fuel, as when their values were
found to be in shape; the readers of octets that they rest on come first, one by one.

## Main definitions

* `Continues` — a reading that finds what another one finds, with an addition behind the rest.

## Main results

* `readersContinue` — the five readers find the same in a longer text.
-/

namespace RecordBoard.Json

-- Powers are those of the core library, whatever else an importing module knows.
attribute [local instance (2000)] instPowNat

/-- What one reading finds the other one finds too, with `more` behind the rest. -/
def Continues {α : Type} (more : Bytes) (reading longer : Reading (α × Bytes)) : Prop :=
  ∀ a rest, reading = .ok (a, rest) → longer = .ok (a, rest ++ more)

namespace Continues

variable {α β : Type} {more : Bytes}

theorem ok (a : α) (rest : Bytes) : Continues more (.ok (a, rest)) (.ok (a, rest ++ more)) := by
  intro a' rest' h
  cases h
  rfl

theorem error (s : Stop) (longer : Reading (α × Bytes)) : Continues more (.error s) longer := by
  intro a rest h
  cases h

theorem bind {reading longer : Reading (α × Bytes)} {next next' : α × Bytes → Reading (β × Bytes)}
    (h : Continues more reading longer)
    (hnext : ∀ a rest, Continues more (next (a, rest)) (next' (a, rest ++ more))) :
    Continues more (reading >>= next) (longer >>= next') := by
  cases reading with
  | error s => exact error s _
  | ok found =>
    rw [h found.1 found.2 rfl]
    exact hnext found.1 found.2

theorem map {reading longer : Reading (α × Bytes)} {f : α × Bytes → β × Bytes}
    (h : Continues more reading longer)
    (hf : ∀ a rest, f (a, rest ++ more) = ((f (a, rest)).1, (f (a, rest)).2 ++ more)) :
    Continues more (reading.map f) (longer.map f) := by
  cases reading with
  | error s => exact error s _
  | ok found =>
    rw [h found.1 found.2 rfl]
    intro b rest hb
    have heq := Except.ok.inj hb
    show Except.ok (f (found.1, found.2 ++ more)) = _
    rw [hf, heq]

end Continues

/-! ## White space and words -/

theorem skipSpace_append {input rest : Bytes} {c : UInt8} (h : skipSpace input = c :: rest)
    (more : Bytes) : skipSpace (input ++ more) = c :: (rest ++ more) := by
  unfold skipSpace at h ⊢
  rw [List.dropWhile_append, h]
  rfl

theorem expectWord_append {word input rest : Bytes} (h : expectWord word input = .ok rest)
    (more : Bytes) : expectWord word (input ++ more) = .ok (rest ++ more) := by
  induction word generalizing input with
  | nil =>
    simp only [expectWord] at h ⊢
    cases h
    rfl
  | cons w word ih =>
    cases input with
    | nil => cases h
    | cons c input =>
      simp only [expectWord, List.cons_append] at h ⊢
      by_cases hc : c = w
      · rw [if_pos hc] at h ⊢
        exact ih h
      · rw [if_neg hc] at h
        cases h

/-! ## Strings -/

theorem continues_prepend {front more : Bytes} {reading longer : Reading (Bytes × Bytes)}
    (h : Continues more reading longer) :
    Continues more (prepend front reading) (prepend front longer) := by
  cases reading with
  | error s => exact Continues.error s _
  | ok found =>
    rw [h found.1 found.2 rfl]
    exact Continues.ok _ _

theorem continues_stringOctets (input more : Bytes) :
    Continues more (stringOctets input) (stringOctets (input ++ more)) := by
  fun_induction stringOctets input
  case case2 rest =>
    have hquote : stringOctets (0x22 :: (rest ++ more)) = .ok ([], rest ++ more) := by
      unfold stringOctets
      rw [if_pos rfl]
    rw [List.cons_append, hquote]
    exact Continues.ok [] rest
  case case4 c rest hquote hcontrol hbackslash ih =>
    have hplain : ∀ b ∈ [c], IsPlain b := by
      intro b hb
      rw [List.mem_singleton.1 hb]
      exact ⟨hquote, hcontrol, hbackslash⟩
    have hread : stringOctets (c :: (rest ++ more)) = prepend [c] (stringOctets (rest ++ more)) :=
      stringOctets_plain hplain (rest ++ more)
    rw [List.cons_append, hread]
    exact continues_prepend ih
  case case6 c _ _ hbackslash letter rest _ named hnamed ih =>
    rw [Decidable.of_not_not hbackslash, List.cons_append, List.cons_append,
      stringOctets_letter hnamed]
    exact continues_prepend ih
  -- What is left are refusals, and escapes that are read with the octets behind them known.
  all_goals simp_all [stringOctets, continues_prepend, Continues.error, stop]

theorem continues_stringBody (input more : Bytes) :
    Continues more (stringBody input) (stringBody (input ++ more)) := by
  refine (continues_stringOctets input more).bind fun octets rest => ?_
  dsimp only
  cases Utf8.decode octets with
  | error _ => exact Continues.error _ _
  | ok s => exact Continues.ok s rest

/-! ## Numerals -/

namespace Numeral

section NoDigit

variable {more : Bytes} (hmore : NoDigit more)

include hmore

theorem takeWhile_isDigit_append (input : Bytes) :
    (input ++ more).takeWhile isDigit = input.takeWhile isDigit := by
  induction input with
  | nil =>
    cases more with
    | nil => rfl
    | cons b more => simp [isDigit_of_noDigit hmore]
  | cons c input ih =>
    rw [List.cons_append, List.takeWhile_cons, List.takeWhile_cons, ih]

theorem dropWhile_isDigit_append (input : Bytes) :
    (input ++ more).dropWhile isDigit = input.dropWhile isDigit ++ more := by
  induction input with
  | nil =>
    cases more with
    | nil => rfl
    | cons b more => simp [isDigit_of_noDigit hmore]
  | cons c input ih =>
    rw [List.cons_append, List.dropWhile_cons, List.dropWhile_cons, ih]
    split <;> rfl

theorem wholeDigits_append (m : Nat) (input : Bytes) :
    wholeDigits m (input ++ more) =
      ((wholeDigits m input).1, (wholeDigits m input).2.1, (wholeDigits m input).2.2 ++ more) := by
  induction input generalizing m with
  | nil =>
    cases more with
    | nil => rfl
    | cons b more => simp only [List.nil_append, wholeDigits, hmore b rfl]
  | cons c input ih =>
    rw [List.cons_append, wholeDigits, wholeDigits]
    cases digit? c with
    | none => rfl
    | some d =>
      dsimp only
      by_cases hfits : m * 10 + d < 2 ^ (64 : Nat)
      · rw [if_pos hfits, if_pos hfits, ih]
      · rw [if_neg hfits, if_neg hfits, ← List.cons_append, takeWhile_isDigit_append hmore,
          dropWhile_isDigit_append hmore]

theorem fractionDigits_append (m taken : Nat) (input : Bytes) :
    fractionDigits m taken (input ++ more) =
      ((fractionDigits m taken input).1, (fractionDigits m taken input).2.1,
        (fractionDigits m taken input).2.2 ++ more) := by
  induction input generalizing m taken with
  | nil =>
    cases more with
    | nil => rfl
    | cons b more => simp only [List.nil_append, fractionDigits, hmore b rfl]
  | cons c input ih =>
    rw [List.cons_append, fractionDigits, fractionDigits]
    cases digit? c with
    | none => rfl
    | some d =>
      dsimp only
      by_cases hfits : m * 10 + d < 2 ^ (64 : Nat)
      · rw [if_pos hfits, if_pos hfits, ih]
      · rw [if_neg hfits, if_neg hfits, dropWhile_isDigit_append hmore]

theorem continues_exponentDigits (enlarges : Bool) (n : Nat) (input : Bytes) :
    Continues more (exponentDigits enlarges n input)
      (exponentDigits enlarges n (input ++ more)) := by
  induction input generalizing n with
  | nil =>
    have hread : exponentDigits enlarges n more = .ok (n, more) := by
      cases more with
      | nil => rfl
      | cons b more => simp only [exponentDigits, hmore b rfl]
    rw [List.nil_append, hread]
    exact Continues.ok n []
  | cons c input ih =>
    rw [List.cons_append, exponentDigits, exponentDigits]
    cases digit? c with
    | none => exact Continues.ok n (c :: input)
    | some d =>
      dsimp only
      split
      · exact Continues.error _ _
      · exact ih (n * 10 + d)

end NoDigit

section EndsValue

variable {more : Bytes} (hmore : EndsValue more)

include hmore

theorem exponentSign_append (input : Bytes) :
    exponentSign (input ++ more) = ((exponentSign input).1, (exponentSign input).2 ++ more) := by
  cases input with
  | nil =>
    cases more with
    | nil => rfl
    | cons b more => rcases hmore b rfl with rfl | rfl | rfl <;> rfl
  | cons c input =>
    by_cases hplus : c = 0x2B
    · rw [hplus]
      rfl
    · by_cases hminus : c = 0x2D
      · rw [hminus]
        rfl
      · rw [List.cons_append, exponentSign.eq_3 _ _ _, exponentSign.eq_3]
        all_goals simp_all

theorem continues_exponentPart (m : Nat) (exponent : Int) (input : Bytes) :
    Continues more (exponentPart m exponent input) (exponentPart m exponent (input ++ more)) := by
  cases input with
  | nil =>
    rw [List.nil_append, exponentPart_endsValue m exponent hmore]
    exact Continues.ok _ _
  | cons c input =>
    rw [List.cons_append, exponentPart, exponentPart]
    split
    · rw [exponentSign_append hmore]
      dsimp only
      cases (exponentSign input).2 with
      | nil => exact Continues.error _ _
      | cons d after =>
        rw [List.cons_append]
        dsimp only
        split
        · exact (continues_exponentDigits (noDigit_of_endsValue hmore) _ _ (d :: after)).map
            fun _ _ => rfl
        · exact Continues.error _ _
    · exact Continues.ok _ (c :: input)

/-- A text that does not begin with an octet goes on without it too. -/
theorem ne_cons_of_append {input : Bytes} {c : UInt8} (hc : c ≠ 0x2C ∧ c ≠ 0x5D ∧ c ≠ 0x7D)
    (h : ∀ rest, input ≠ c :: rest) (rest : Bytes) : input ++ more ≠ c :: rest := by
  cases input with
  | nil =>
    rintro rfl
    rcases hmore c rfl with heq | heq | heq
    · exact hc.1 heq
    · exact hc.2.1 heq
    · exact hc.2.2 heq
  | cons d input =>
    intro heq
    exact h input (by rw [(List.cons.inj heq).1])

theorem continues_tailParts (negative : Bool) (m dropped : Nat) (input : Bytes) :
    Continues more (tailParts negative m dropped input)
      (tailParts negative m dropped (input ++ more)) := by
  by_cases hpoint : ∃ rest, input = 0x2E :: rest
  · obtain ⟨rest, rfl⟩ := hpoint
    cases rest with
    | nil => exact Continues.error _ _
    | cons c after =>
      rw [List.cons_append, List.cons_append, tailParts, tailParts]
      split
      · rw [← List.cons_append, fractionDigits_append (noDigit_of_endsValue hmore)]
        exact (continues_exponentPart hmore _ _ _).map fun _ _ => rfl
      · exact Continues.error _ _
  · have hinput : ∀ rest, input ≠ 0x2E :: rest := fun rest heq => hpoint ⟨rest, heq⟩
    rw [tailParts.eq_3 _ _ _ _ hinput, tailParts.eq_3 _ _ _ _
      (ne_cons_of_append hmore (by decide) hinput)]
    exact (continues_exponentPart hmore _ _ _).map fun _ _ => rfl

theorem continues_ofUnsigned (negative : Bool) (input : Bytes) :
    Continues more (ofUnsigned negative input) (ofUnsigned negative (input ++ more)) := by
  cases input with
  | nil => exact Continues.error _ _
  | cons c rest =>
    unfold ofUnsigned
    rw [List.cons_append]
    dsimp only
    cases digit? c with
    | none => exact Continues.error _ _
    | some d =>
      cases d with
      | zero =>
        cases rest with
        | nil =>
          cases more with
          | nil => exact continues_tailParts hmore negative 0 0 []
          | cons b more =>
            show Continues _ _ (if isDigit b = true then _ else tailParts negative 0 0 (b :: more))
            rw [isDigit_of_noDigit (noDigit_of_endsValue hmore), if_neg Bool.false_ne_true]
            exact continues_tailParts hmore negative 0 0 []
        | cons d after =>
          show Continues more (if isDigit d = true then _ else tailParts negative 0 0 (d :: after))
            (if isDigit d = true then _ else tailParts negative 0 0 (d :: after ++ more))
          by_cases hdigit : isDigit d = true
          · rw [if_pos hdigit]
            exact Continues.error _ _
          · rw [if_neg hdigit, if_neg hdigit]
            exact continues_tailParts hmore negative 0 0 (d :: after)
      | succ d =>
        show Continues more
          (tailParts negative (wholeDigits (d + 1) rest).1 (wholeDigits (d + 1) rest).2.1
            (wholeDigits (d + 1) rest).2.2)
          (tailParts negative (wholeDigits (d + 1) (rest ++ more)).1
            (wholeDigits (d + 1) (rest ++ more)).2.1
            (wholeDigits (d + 1) (rest ++ more)).2.2)
        rw [wholeDigits_append (noDigit_of_endsValue hmore)]
        exact continues_tailParts hmore negative _ _ _

theorem continues_ofBytes (input : Bytes) :
    Continues more (Numeral.ofBytes input) (Numeral.ofBytes (input ++ more)) := by
  by_cases hminus : ∃ rest, input = 0x2D :: rest
  · obtain ⟨rest, rfl⟩ := hminus
    exact continues_ofUnsigned hmore true rest
  · have hinput : ∀ rest, input ≠ 0x2D :: rest := fun rest heq => hminus ⟨rest, heq⟩
    rw [Numeral.ofBytes.eq_2 _ hinput, Numeral.ofBytes.eq_2 _
      (ne_cons_of_append hmore (by decide) hinput)]
    exact continues_ofUnsigned hmore false input

end EndsValue

end Numeral

theorem continues_number {more : Bytes} (hmore : EndsValue more) (input : Bytes) :
    Continues more (Number.ofBytes input) (Number.ofBytes (input ++ more)) := by
  refine (Numeral.continues_ofBytes hmore input).bind fun numeral rest => ?_
  dsimp only
  cases numeral.number? with
  | none => exact Continues.error _ _
  | some n => exact Continues.ok n rest

/-! ## The front of a value -/

/-- A front with an addition behind the rest. -/
def Head.append (more : Bytes) : Head → Head
  | .scalar v rest => .scalar v (rest ++ more)
  | .list inside => .list (inside ++ more)
  | .map inside => .map (inside ++ more)

theorem word_append {word rest : Bytes} {v : Value} {front : Head} (more : Bytes)
    (h : (expectWord word rest).map (Head.scalar v) = .ok front) :
    (expectWord word (rest ++ more)).map (Head.scalar v) = .ok (front.append more) := by
  cases hword : expectWord word rest with
  | error s =>
    rw [hword] at h
    cases h
  | ok after =>
    rw [hword] at h
    rw [expectWord_append hword]
    cases h
    rfl

theorem scalar_append {α : Type} {more : Bytes} {reading longer : Reading (α × Bytes)}
    {value : α → Value} {front : Head} (hlonger : Continues more reading longer)
    (h : (reading.map fun (a, rest) => Head.scalar (value a) rest) = .ok front) :
    (longer.map fun (a, rest) => Head.scalar (value a) rest) = .ok (front.append more) := by
  cases reading with
  | error s => cases h
  | ok found =>
    rw [hlonger found.1 found.2 rfl]
    cases h
    rfl

/-- The front of a value, in a longer text. -/
theorem head_append {more input : Bytes} (hmore : EndsValue more) {front : Head}
    (h : head input = .ok front) :
    head (input ++ more) = .ok (front.append more) := by
  unfold head at h ⊢
  cases hskip : skipSpace input with
  | nil =>
    rw [hskip] at h
    cases h
  | cons c rest =>
    rw [hskip] at h
    rw [skipSpace_append hskip]
    dsimp only at h ⊢
    by_cases hnull : c = 0x6E
    · rw [if_pos hnull] at h ⊢
      exact word_append more h
    rw [if_neg hnull] at h ⊢
    by_cases htrue : c = 0x74
    · rw [if_pos htrue] at h ⊢
      exact word_append more h
    rw [if_neg htrue] at h ⊢
    by_cases hfalse : c = 0x66
    · rw [if_pos hfalse] at h ⊢
      exact word_append more h
    rw [if_neg hfalse] at h ⊢
    by_cases hquote : c = 0x22
    · rw [if_pos hquote] at h ⊢
      exact scalar_append (continues_stringBody rest more) h
    rw [if_neg hquote] at h ⊢
    by_cases hlist : c = 0x5B
    · rw [if_pos hlist] at h ⊢
      cases h
      rfl
    rw [if_neg hlist] at h ⊢
    by_cases hmap : c = 0x7B
    · rw [if_pos hmap] at h ⊢
      cases h
      rfl
    rw [if_neg hmap] at h ⊢
    by_cases hnumeral : c = 0x2D ∨ isDigit c
    · rw [if_pos hnumeral] at h ⊢
      exact scalar_append (continues_number hmore (c :: rest)) h
    · rw [if_neg hnumeral] at h
      cases h

theorem continues_fieldName (input more : Bytes) :
    Continues more (fieldName input) (fieldName (input ++ more)) := by
  cases input with
  | nil => exact Continues.error _ _
  | cons c rest =>
    rw [List.cons_append, fieldName, fieldName]
    split
    · exact continues_stringBody rest more
    · exact Continues.error _ _

theorem skipColon_append {input rest : Bytes} (h : skipColon input = .ok rest) (more : Bytes) :
    skipColon (input ++ more) = .ok (rest ++ more) := by
  unfold skipColon at h ⊢
  cases hskip : skipSpace input with
  | nil =>
    rw [hskip] at h
    cases h
  | cons c after =>
    rw [hskip] at h
    rw [skipSpace_append hskip]
    dsimp only at h ⊢
    split at h
    next hc =>
      rw [if_pos hc]
      cases h
      rfl
    next => cases h

/-! ## The readers -/

/-- What a reader finds it also finds with more fuel, with more room and with an addition behind. -/
def FindsAgain {α : Type} (more : Bytes) (reader : Nat → Nat → Bytes → Reading (α × Bytes))
    (fuel : Nat) : Prop :=
  ∀ fuel' room room' input, fuel ≤ fuel' → room ≤ room' →
    Continues more (reader fuel room input) (reader fuel' room' (input ++ more))

/-- The five readers find again what they find with a given fuel. -/
structure ReadersContinue (more : Bytes) (fuel : Nat) : Prop where
  /-- A value. -/
  value : FindsAgain more readValue fuel
  /-- Items. -/
  items : FindsAgain more readItems fuel
  /-- Items behind an item. -/
  moreItems : FindsAgain more readMoreItems fuel
  /-- Fields. -/
  fields : FindsAgain more readFields fuel
  /-- Fields behind a field. -/
  moreFields : FindsAgain more readMoreFields fuel

theorem readersContinue_zero (more : Bytes) : ReadersContinue more 0 where
  value _ _ _ _ _ _ := by rw [readValue]; exact Continues.error _ _
  items _ _ _ _ _ _ := by rw [readItems]; exact Continues.error _ _
  moreItems _ _ _ _ _ _ := by rw [readMoreItems]; exact Continues.error _ _
  fields _ _ _ _ _ _ := by rw [readFields]; exact Continues.error _ _
  moreFields _ _ _ _ _ _ := by rw [readMoreFields]; exact Continues.error _ _

section Step

variable {more : Bytes} {fuel fuel' room room' : Nat} (h : ReadersContinue more fuel)
  (hfuel : fuel ≤ fuel')
  (hroom : room ≤ room')

include h hfuel hroom

theorem continues_value (hmore : EndsValue more) (input : Bytes) :
    Continues more (readValue (fuel + 1) room input)
      (readValue (fuel' + 1) room' (input ++ more)) := by
  rw [readValue, readValue]
  cases hhead : head input with
  | error s => exact Continues.error s _
  | ok front =>
    rw [head_append hmore hhead]
    cases front with
    | scalar v rest => exact Continues.ok v rest
    | list inside =>
      show Continues more (if room = 0 then _ else _) (if room' = 0 then _ else _)
      by_cases hzero : room = 0
      · rw [if_pos hzero]
        exact Continues.error _ _
      · rw [if_neg hzero, if_neg (by omega)]
        exact (h.items fuel' _ _ inside hfuel (by omega)).bind fun items rest => Continues.ok _ rest
    | map inside =>
      show Continues more (if room = 0 then _ else _) (if room' = 0 then _ else _)
      by_cases hzero : room = 0
      · rw [if_pos hzero]
        exact Continues.error _ _
      · rw [if_neg hzero, if_neg (by omega)]
        exact (h.fields fuel' _ _ inside hfuel (by omega)).bind fun fields rest =>
          Continues.ok _ rest

/-- An item and those behind it. -/
theorem continues_item (input : Bytes) :
    Continues more
      (readValue fuel room input >>= fun (v, rest) =>
        readMoreItems fuel room rest >>= fun (items, rest) => .ok (v :: items, rest))
      (readValue fuel' room' (input ++ more) >>= fun (v, rest) =>
        readMoreItems fuel' room' rest >>= fun (items, rest) => .ok (v :: items, rest)) :=
  (h.value fuel' room room' input hfuel hroom).bind fun _ rest =>
    (h.moreItems fuel' room room' rest hfuel hroom).bind fun _ rest => Continues.ok _ rest

/-- A field and those behind it. -/
theorem continues_field (input : Bytes) :
    Continues more
      (fieldName input >>= fun (name, rest) => skipColon rest >>= fun input =>
        readValue fuel room input >>= fun (v, rest) =>
          readMoreFields fuel room rest >>= fun (fields, rest) => .ok ((name, v) :: fields, rest))
      (fieldName (input ++ more) >>= fun (name, rest) => skipColon rest >>= fun input =>
        readValue fuel' room' input >>= fun (v, rest) =>
          readMoreFields fuel' room' rest >>= fun (fields, rest) =>
            .ok ((name, v) :: fields, rest)) := by
  refine (continues_fieldName input more).bind fun name rest => ?_
  dsimp only
  cases hcolon : skipColon rest with
  | error s => exact Continues.error s _
  | ok rest =>
    rw [skipColon_append hcolon more]
    exact (h.value fuel' room room' rest hfuel hroom).bind fun _ rest =>
      (h.moreFields fuel' room room' rest hfuel hroom).bind fun _ rest => Continues.ok _ rest

theorem continues_items (input : Bytes) :
    Continues more (readItems (fuel + 1) room input)
      (readItems (fuel' + 1) room' (input ++ more)) := by
  rw [readItems, readItems]
  cases hskip : skipSpace input with
  | nil => exact Continues.error _ _
  | cons c rest =>
    rw [skipSpace_append hskip]
    dsimp only
    split
    · exact Continues.ok [] rest
    · exact continues_item h hfuel hroom (c :: rest)

theorem continues_moreItems (input : Bytes) :
    Continues more (readMoreItems (fuel + 1) room input)
      (readMoreItems (fuel' + 1) room' (input ++ more)) := by
  rw [readMoreItems, readMoreItems.eq_2]
  cases hskip : skipSpace input with
  | nil => exact Continues.error _ _
  | cons c rest =>
    rw [skipSpace_append hskip]
    dsimp only
    split
    · exact Continues.ok [] rest
    split
    · exact Continues.error _ _
    cases hskip : skipSpace rest with
    | nil => exact Continues.error _ _
    | cons c rest =>
      rw [skipSpace_append hskip]
      dsimp only
      split
      · exact Continues.error _ _
      · exact continues_item h hfuel hroom (c :: rest)

theorem continues_fields (input : Bytes) :
    Continues more (readFields (fuel + 1) room input)
      (readFields (fuel' + 1) room' (input ++ more)) := by
  rw [readFields, readFields]
  cases hskip : skipSpace input with
  | nil => exact Continues.error _ _
  | cons c rest =>
    rw [skipSpace_append hskip]
    dsimp only
    split
    · exact Continues.ok [] rest
    · exact continues_field h hfuel hroom (c :: rest)

theorem continues_moreFields (input : Bytes) :
    Continues more (readMoreFields (fuel + 1) room input)
      (readMoreFields (fuel' + 1) room' (input ++ more)) := by
  rw [readMoreFields, readMoreFields.eq_2]
  cases hskip : skipSpace input with
  | nil => exact Continues.error _ _
  | cons c rest =>
    rw [skipSpace_append hskip]
    dsimp only
    split
    · exact Continues.ok [] rest
    split
    · exact Continues.error _ _
    cases hskip : skipSpace rest with
    | nil => exact Continues.error _ _
    | cons c rest =>
      rw [skipSpace_append hskip]
      dsimp only
      split
      · exact Continues.error _ _
      · exact continues_field h hfuel hroom (c :: rest)

end Step

/-- The five readers find again what they find. -/
theorem readersContinue {more : Bytes} (hmore : EndsValue more) (fuel : Nat) :
    ReadersContinue more fuel := by
  induction fuel with
  | zero => exact readersContinue_zero more
  | succ fuel ih =>
    constructor <;> intro fuel' room room' input hfuel hroom <;>
      obtain ⟨fuel', rfl⟩ := Nat.exists_eq_add_one.2 (Nat.lt_of_lt_of_le (Nat.succ_pos fuel) hfuel)
    · exact continues_value ih (Nat.le_of_succ_le_succ hfuel) hroom hmore input
    · exact continues_items ih (Nat.le_of_succ_le_succ hfuel) hroom input
    · exact continues_moreItems ih (Nat.le_of_succ_le_succ hfuel) hroom input
    · exact continues_fields ih (Nat.le_of_succ_le_succ hfuel) hroom input
    · exact continues_moreFields ih (Nat.le_of_succ_le_succ hfuel) hroom input

end RecordBoard.Json
