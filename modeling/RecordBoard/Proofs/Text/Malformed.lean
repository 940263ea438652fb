import RecordBoard.Proofs.Text.Utf8

/-!
# Octets that are no text

`Utf8.pieces` walks through octets and tells what it meets by ranges of numbers.  What it should
meet can be said without ranges and without walking, by the octets of characters alone.  Octets that
are no text are a text as far as it goes, and what is left then does not begin with a character.
Either that is a piece of a character, which has been cut off, or no character goes on like that.
In the second case the stretch that is refused is the longest that some character begins with, and a
single octet if there is none.

Both sides say that exactly one thing is the case, so it is enough to go from the pieces to the
octets: each of the eleven ways through `pieces` is one of the three that there should be.

## Main definitions

* `Begins` — octets that some character begins with.
* `IsCutOff`, `IsRefused` — octets that do not begin with a character, and why.
* `IsFault` — what is wrong with octets, and where.

## Main results

* `eq_ok_iff_of_total`, `eq_error_iff_of_total` — what is read and refused by a reader that leaves
  nothing open.
* `opens_pieces` — the first piece is what the octets open with.
* `text_or_fault` — octets are a text, or something is wrong with them.
* `decode_eq_ok_iff`, `decode_eq_error_iff` — octets are read as the text that they are, and else
  refused for what is wrong with them.
* `encode_isPrefix_encode_iff` — one text begins with another if its octets do.
-/

namespace RecordBoard

/-! ## Readers that leave nothing open -/

section Total

variable {ε α : Type} {result : Except ε α} {right : α → Prop} {wrong : ε → Prop}
  (hright : ∀ a, right a → result = .ok a) (hwrong : ∀ e, wrong e → result = .error e)
  (htotal : (∃ a, right a) ∨ ∃ e, wrong e)

include hright hwrong htotal

/-- If what is right is read, what is wrong is refused, and it is always one of them, nothing else
is read, -/
theorem eq_ok_iff_of_total {a : α} : result = .ok a ↔ right a := by
  constructor
  · intro h
    rcases htotal with ⟨b, hb⟩ | ⟨e, he⟩
    · rw [hright b hb] at h
      rwa [← Except.ok.inj h]
    · rw [hwrong e he] at h
      cases h
  · exact hright a

end Total

end RecordBoard

namespace RecordBoard.Utf8

/-! ## What is wrong with octets -/

/-- Some character begins with these octets, or has no others. -/
def Begins (bytes : Bytes) : Prop := ∃ c, bytes <+: String.utf8EncodeChar c

/-- The octets are a piece of a character. -/
structure IsCutOff (bytes : Bytes) : Prop where
  /-- Some character goes on like that, -/
  begins : Begins bytes
  /-- and this is not all of one. -/
  not_whole : ∀ c, bytes ≠ String.utf8EncodeChar c
  /-- There are some. -/
  nonempty : bytes ≠ []

/-- No character goes on like these octets, and so many of them go together. -/
structure IsRefused (bytes : Bytes) (length : Nat) : Prop where
  /-- No character stands in front. -/
  none_whole : ∀ c, ¬ String.utf8EncodeChar c <+: bytes
  /-- At least one octet goes, -/
  pos : 0 < length
  /-- no character begins with more of them, -/
  longest : ∀ n, Begins (bytes.take n) → n ≤ length
  /-- and one does with as many, unless it is but one. -/
  stretch : length = 1 ∨ Begins (bytes.take length)

/-- What is wrong with octets: they are a text up to an index, and no character stands there. -/
inductive IsFault (bytes : Bytes) : Fault → Prop
  /-- They end inside a character. -/
  | cutOff {s : String} {rest : Bytes} (h : bytes = encode s ++ rest) (hrest : IsCutOff rest) :
      IsFault bytes (.cutOff (encode s).length)
  /-- They go on in a way that no character does. -/
  | refused {s : String} {rest : Bytes} {length : Nat} (h : bytes = encode s ++ rest)
      (hrest : IsRefused rest length) : IsFault bytes (.refused (encode s).length length)

theorem Begins.of_isPrefix {front bytes : Bytes} (h : Begins bytes) (hfront : front <+: bytes) :
    Begins front := by
  obtain ⟨c, hc⟩ := h
  exact ⟨c, hfront.trans hc⟩

theorem begins_of_append {c : Char} (front back : Bytes)
    (h : String.utf8EncodeChar c = front ++ back) :
    Begins front := by
  refine ⟨c, ?_⟩
  rw [h]
  exact List.prefix_append front back

/-! ## Characters by the numbers of their octets -/

theorem isTail_iff {b : UInt8} : isTail b = true ↔ 0x80 ≤ b.toNat ∧ b.toNat < 0xC0 := by
  simp [isTail, UInt8.le_iff_toNat_le, UInt8.lt_iff_toNat_lt]

theorem isSecond_iff {b c : UInt8} :
    isSecond b c = true ↔
      (0x80 ≤ c.toNat ∧ c.toNat < 0xC0) ∧ (b.toNat = 0xE0 → 0xA0 ≤ c.toNat) ∧
        (b.toNat = 0xED → c.toNat < 0xA0) ∧ (b.toNat = 0xF0 → 0x90 ≤ c.toNat) ∧
        (b.toNat = 0xF4 → c.toNat < 0x90) := by
  unfold isSecond isTail
  simp only [← UInt8.toNat_inj, UInt8.reduceToNat]
  repeat' split
  all_goals
    simp only [Bool.and_eq_true, decide_eq_true_eq, UInt8.le_iff_toNat_le, UInt8.lt_iff_toNat_lt,
      UInt8.reduceToNat]
    omega

/-- The octets of a character, by its number. -/
theorem utf8EncodeChar_ofNat {n : Nat} (h : n < 0xD800 ∨ 0xDFFF < n ∧ n < 0x110000) :
    String.utf8EncodeChar (Char.ofNat n) =
      if n ≤ 0x7F then [UInt8.ofNat n]
      else if n ≤ 0x7FF then [UInt8.ofNat (n / 64 % 0x20 + 0xC0), UInt8.ofNat (n % 0x40 + 0x80)]
      else if n ≤ 0xFFFF then
        [UInt8.ofNat (n / 4096 % 0x10 + 0xE0), UInt8.ofNat (n / 64 % 0x40 + 0x80),
         UInt8.ofNat (n % 0x40 + 0x80)]
      else
        [UInt8.ofNat (n / 262144 % 0x08 + 0xF0), UInt8.ofNat (n / 4096 % 0x40 + 0x80),
          UInt8.ofNat (n / 64 % 0x40 + 0x80), UInt8.ofNat (n % 0x40 + 0x80)] := by
  have hnumber : (Char.ofNat n).val.toNat = n := toNat_ofNat_of_valid h
  unfold String.utf8EncodeChar
  rw [hnumber]

theorem octet_of_toNat {n : Nat} {b : UInt8} (h : n = b.toNat) : UInt8.ofNat n = b := by
  rw [h, UInt8.ofNat_toNat]

section Octets

variable {b c d e : UInt8}

theorem utf8EncodeChar_one (hb : b.toNat < 0x80) :
    String.utf8EncodeChar (Char.ofNat b.toNat) = [b] := by
  rw [utf8EncodeChar_ofNat (by omega), if_pos (by omega), UInt8.ofNat_toNat]

theorem utf8EncodeChar_two (hb : 0xC2 ≤ b.toNat) (hb' : b.toNat < 0xE0) (hc : isSecond b c = true) :
    String.utf8EncodeChar (Char.ofNat ((b.toNat - 0xC0) * 64 + tailBits c)) = [b, c] := by
  rw [isSecond_iff] at hc
  unfold tailBits
  rw [utf8EncodeChar_ofNat (by omega), if_neg (by omega), if_pos (by omega),
    octet_of_toNat (b := b) (by omega), octet_of_toNat (b := c) (by omega)]

theorem utf8EncodeChar_three (hb : 0xE0 ≤ b.toNat) (hb' : b.toNat < 0xF0) (hc : isSecond b c = true)
    (hd : isTail d = true) :
    String.utf8EncodeChar (Char.ofNat ((b.toNat - 0xE0) * 4096 + tailBits c * 64 + tailBits d)) =
      [b, c, d] := by
  rw [isSecond_iff] at hc
  rw [isTail_iff] at hd
  unfold tailBits
  rw [utf8EncodeChar_ofNat (by omega), if_neg (by omega), if_neg (by omega), if_pos (by omega),
    octet_of_toNat (b := b) (by omega), octet_of_toNat (b := c) (by omega),
      octet_of_toNat (b := d) (by omega)]

theorem utf8EncodeChar_four (hb : 0xF0 ≤ b.toNat) (hb' : b.toNat < 0xF5) (hc : isSecond b c = true)
    (hd : isTail d = true) (he : isTail e = true) :
    String.utf8EncodeChar
      (Char.ofNat ((b.toNat - 0xF0) * 262144 + tailBits c * 4096 + tailBits d * 64 + tailBits e)) =
      [b, c, d, e] := by
  rw [isSecond_iff] at hc
  rw [isTail_iff] at hd he
  unfold tailBits
  rw [utf8EncodeChar_ofNat (by omega), if_neg (by omega), if_neg (by omega), if_neg (by omega),
    octet_of_toNat (b := b) (by omega), octet_of_toNat (b := c) (by omega),
      octet_of_toNat (b := d) (by omega),
    octet_of_toNat (b := e) (by omega)]

/-! ## Pieces of characters -/

theorem begins_three (hb : 0xF0 ≤ b.toNat) (hb' : b.toNat < 0xF5) (hc : isSecond b c = true)
    (hd : isTail d = true) : Begins [b, c, d] :=
  begins_of_append [b, c, d] [0x80] (utf8EncodeChar_four hb hb' hc hd (by decide))

theorem begins_two (hb : 0xC2 ≤ b.toNat) (hb' : b.toNat < 0xF5) (hc : isSecond b c = true) :
    Begins [b, c] := by
  by_cases htwo : b.toNat < 0xE0
  · exact begins_of_append [b, c] [] (utf8EncodeChar_two hb htwo hc)
  · by_cases hthree : b.toNat < 0xF0
    · exact begins_of_append [b, c] [0x80] (utf8EncodeChar_three (by omega) hthree hc (by decide))
    · exact (begins_three (d := 0x80) (by omega) hb' hc (by decide)).of_isPrefix ⟨[0x80], rfl⟩

theorem begins_one (hb : 0xC2 ≤ b.toNat) (hb' : b.toNat < 0xF5) : Begins [b] := by
  -- Two first octets do not admit the least second one, and these two admit the least and the
  -- greatest.
  have hsecond : isSecond b 0x80 = true ∨ isSecond b 0xBF = true := by
    simp only [isSecond_iff, UInt8.reduceToNat]
    omega
  rcases hsecond with hc | hc
  · exact (begins_two hb hb' hc).of_isPrefix ⟨[0x80], rfl⟩
  · exact (begins_two hb hb' hc).of_isPrefix ⟨[0xBF], rfl⟩

end Octets

/-! ## What octets open with -/

/-- What octets open with: a character, or the piece that tells what is wrong. -/
inductive Opens : Bytes → List Piece → Prop
  /-- They begin with a character. -/
  | char (c : Char) (rest : Bytes) : Opens (String.utf8EncodeChar c ++ rest)
    (.char c :: pieces rest)
  /-- They are a piece of one. -/
  | cutOff {bytes : Bytes} (h : IsCutOff bytes) : Opens bytes [.cutOff]
  /-- They go on as no character does. -/
  | refused {bytes : Bytes} {length : Nat} (h : IsRefused bytes length) (more : List Piece) :
      Opens bytes (.refused length :: more)

theorem pieces_whole (c : Char) : pieces (String.utf8EncodeChar c) = [.char c] := by
  have hpieces := pieces_utf8EncodeChar c []
  rwa [List.append_nil] at hpieces

theorem opens_char {bytes : Bytes} {c : Char} (rest : Bytes)
    (hwhole : bytes = String.utf8EncodeChar c ++ rest) :
    Opens bytes (pieces bytes) := by
  rw [hwhole, pieces_utf8EncodeChar]
  exact .char c rest

theorem opens_cutOff {bytes : Bytes} (hbegins : Begins bytes) (hpieces : pieces bytes = [.cutOff]) :
    Opens bytes (pieces bytes) := by
  have hcut : IsCutOff bytes := by
    refine ⟨hbegins, ?_, ?_⟩
    · intro c hwhole
      rw [hwhole, pieces_whole] at hpieces
      cases hpieces
    · intro hnil
      rw [hnil, pieces] at hpieces
      cases hpieces
  rw [hpieces]
  exact .cutOff hcut

/-- Octets that are refused whatever follows are not the front of a character. -/
theorem not_begins_of_pieces {front : Bytes} {length : Nat}
    (h : ∀ back, ∃ more, pieces (front ++ back) = .refused length :: more) : ¬ Begins front := by
  rintro ⟨c, back, hwhole⟩
  obtain ⟨more, hmore⟩ := h back
  rw [hwhole, pieces_whole] at hmore
  cases hmore

theorem opens_refused (front rest : Bytes) (length : Nat) (hpos : 0 < length)
    (hlength : front.length ≤ length + 1)
    (hpieces : ∀ back, ∃ more, pieces (front ++ back) = .refused length :: more)
    (hstretch : length = 1 ∨ Begins ((front ++ rest).take length)) :
    Opens (front ++ rest) (pieces (front ++ rest)) := by
  obtain ⟨more, hmore⟩ := hpieces rest
  have hrefused : IsRefused (front ++ rest) length := by
    refine ⟨?_, hpos, ?_, hstretch⟩
    · rintro c ⟨back, hwhole⟩
      rw [← hwhole, pieces_utf8EncodeChar] at hmore
      cases hmore
    · intro n hn
      apply Nat.le_of_not_lt
      intro hlt
      -- More octets than go together hold all of the front, which no character begins with.
      have hfront : front <+: (front ++ rest).take n := by
        apply List.prefix_take_iff.2
        exact ⟨List.prefix_append front rest, by omega⟩
      exact not_begins_of_pieces hpieces (hn.of_isPrefix hfront)
  rw [hmore]
  exact .refused hrefused more

/-! ### One octet after the other -/

section Pieces

variable {b c d e : UInt8}

theorem opens_bad_first (hb : 0x80 ≤ b.toNat) (hb' : b.toNat < 0xC2 ∨ 0xF5 ≤ b.toNat)
    (rest : Bytes) :
    Opens (b :: rest) (pieces (b :: rest)) := by
  refine opens_refused [b] rest 1 (by simp) (by simp) (fun back => ⟨pieces back, ?_⟩) (.inl rfl)
  conv => lhs; unfold pieces
  simp only [List.cons_append, List.nil_append, UInt8.lt_iff_toNat_lt, UInt8.le_iff_toNat_le,
    UInt8.reduceToNat]
  rw [if_neg (by omega), if_pos hb']

variable (hb' : b.toNat < 0xF5)

include hb'

theorem opens_first (hb : 0xC2 ≤ b.toNat) : Opens [b] (pieces [b]) := by
  apply opens_cutOff (begins_one hb hb')
  unfold pieces
  simp only [UInt8.lt_iff_toNat_lt, UInt8.le_iff_toNat_le, UInt8.reduceToNat]
  rw [if_neg (by omega), if_neg (by omega)]

theorem opens_bad_second (hb : 0xC2 ≤ b.toNat) (hc : isSecond b c = false) (rest : Bytes) :
    Opens (b :: c :: rest) (pieces (b :: c :: rest)) := by
  refine opens_refused [b, c] rest 1 (by simp) (by simp) (fun back => ⟨pieces (c :: back), ?_⟩)
    (.inl rfl)
  conv => lhs; unfold pieces
  simp only [List.cons_append, List.nil_append, UInt8.lt_iff_toNat_lt, UInt8.le_iff_toNat_le,
    UInt8.reduceToNat, hc, Bool.not_false, if_true]
  rw [if_neg (by omega), if_neg (by omega)]

variable (hc : isSecond b c = true)

include hc

theorem opens_second (hb : 0xE0 ≤ b.toNat) : Opens [b, c] (pieces [b, c]) := by
  apply opens_cutOff (begins_two (by omega) hb' hc)
  unfold pieces
  simp only [UInt8.lt_iff_toNat_lt, UInt8.le_iff_toNat_le, UInt8.reduceToNat, hc, Bool.not_true,
    Bool.false_eq_true, if_false]
  rw [if_neg (by omega), if_neg (by omega), if_neg (by omega)]

theorem opens_bad_third (hb : 0xE0 ≤ b.toNat) (hd : isTail d = false) (rest : Bytes) :
    Opens (b :: c :: d :: rest) (pieces (b :: c :: d :: rest)) := by
  refine opens_refused [b, c, d] rest 2 (by simp) (by simp) (fun back => ⟨pieces (d :: back), ?_⟩)
    (.inr (begins_two (by omega) hb' hc))
  conv => lhs; unfold pieces
  simp only [List.cons_append, List.nil_append, UInt8.lt_iff_toNat_lt, UInt8.le_iff_toNat_le,
    UInt8.reduceToNat, hc, hd, Bool.not_true, Bool.not_false, Bool.false_eq_true, if_false, if_true]
  rw [if_neg (by omega), if_neg (by omega), if_neg (by omega)]

variable (hb : 0xF0 ≤ b.toNat) (hd : isTail d = true)

include hb hd

theorem opens_third : Opens [b, c, d] (pieces [b, c, d]) := by
  apply opens_cutOff (begins_three hb hb' hc hd)
  unfold pieces
  simp only [UInt8.lt_iff_toNat_lt, UInt8.le_iff_toNat_le, UInt8.reduceToNat, hc, hd, Bool.not_true,
    Bool.false_eq_true, if_false]
  rw [if_neg (by omega), if_neg (by omega), if_neg (by omega), if_neg (by omega)]

theorem opens_bad_fourth (he : isTail e = false) (rest : Bytes) :
    Opens (b :: c :: d :: e :: rest) (pieces (b :: c :: d :: e :: rest)) := by
  refine opens_refused [b, c, d, e] rest 3 (by simp) (by simp)
    (fun back => ⟨pieces (e :: back), ?_⟩)
    (.inr (begins_three hb hb' hc hd))
  conv => lhs; unfold pieces
  simp only [List.cons_append, List.nil_append, UInt8.lt_iff_toNat_lt, UInt8.le_iff_toNat_le,
    UInt8.reduceToNat, hc, hd, he, Bool.not_true, Bool.not_false, Bool.false_eq_true, if_false,
      if_true]
  rw [if_neg (by omega), if_neg (by omega), if_neg (by omega), if_neg (by omega)]

end Pieces

/-- The first piece is what the octets open with. -/
theorem opens_pieces {bytes : Bytes} (h : bytes ≠ []) : Opens bytes (pieces bytes) := by
  match bytes, h with
  | b :: rest, _ =>
    by_cases hsingle : b.toNat < 0x80
    · exact opens_char rest (by rw [utf8EncodeChar_one hsingle]; rfl)
    by_cases hbad : b.toNat < 0xC2 ∨ 0xF5 ≤ b.toNat
    · exact opens_bad_first (by omega) hbad rest
    have hb : 0xC2 ≤ b.toNat := by omega
    have hb' : b.toNat < 0xF5 := by omega
    match rest with
    | [] => exact opens_first hb' hb
    | c :: rest =>
      cases hc : isSecond b c with
      | false => exact opens_bad_second hb' hb hc rest
      | true =>
        by_cases htwo : b.toNat < 0xE0
        · exact opens_char rest (by rw [utf8EncodeChar_two hb htwo hc]; rfl)
        have hlong : 0xE0 ≤ b.toNat := by omega
        match rest with
        | [] => exact opens_second hb' hc hlong
        | d :: rest =>
          cases hd : isTail d with
          | false => exact opens_bad_third hb' hc hlong hd rest
          | true =>
            by_cases hthree : b.toNat < 0xF0
            · exact opens_char rest (by rw [utf8EncodeChar_three hlong hthree hc hd]; rfl)
            have hlongest : 0xF0 ≤ b.toNat := by omega
            match rest with
            | [] => exact opens_third hb' hc hlongest hd
            | e :: rest =>
              cases he : isTail e with
              | false => exact opens_bad_fourth hb' hc hlongest hd he rest
              | true =>
                exact opens_char rest (by rw [utf8EncodeChar_four hlongest hb' hc hd he]; rfl)

/-! ## Whole texts -/

theorem octets_toList (s : String) : octets s.toList = encode s := rfl

theorem octets_cons (c : Char) (chars : List Char) :
    octets (c :: chars) = String.utf8EncodeChar c ++ octets chars := rfl

theorem pieces_octets_append (chars : List Char) (rest : Bytes) :
    pieces (octets chars ++ rest) = chars.map .char ++ pieces rest := by
  induction chars with
  | nil => rfl
  | cons c chars ih =>
    rw [octets_cons, List.append_assoc, pieces_utf8EncodeChar, ih]
    rfl

/-- What is wrong behind some characters is wrong with the whole, as many octets further on. -/
theorem characters_of_error {chars : List Char} {index : Nat} {more : List Piece} {f : Fault}
    (h : characters (index + (octets chars).length) more = .error f) :
    characters index (chars.map .char ++ more) = .error f := by
  induction chars generalizing index with
  | nil => exact h
  | cons c chars ih =>
    have hlength : index + c.utf8Size + (octets chars).length =
        index + (octets (c :: chars)).length := by
      rw [octets_cons, List.length_append, String.length_utf8EncodeChar]
      omega
    have hrest : characters (index + c.utf8Size) (chars.map .char ++ more) = .error f := by
      apply ih
      rw [hlength]
      exact h
    rw [List.map_cons, List.cons_append, characters, hrest]
    rfl

theorem decode_of_error {s : String} {rest : Bytes} {f : Fault}
    (h : characters (encode s).length (pieces rest) = .error f) :
    decode (encode s ++ rest) = .error f := by
  have hcharacters : characters 0 (s.toList.map .char ++ pieces rest) = .error f := by
    apply characters_of_error
    rw [octets_toList, Nat.zero_add]
    exact h
  rw [decode, ← octets_toList, pieces_octets_append, hcharacters]
  rfl

/-! ### A text, or a fault -/

theorem encode_cons (c : Char) (s : String) :
    encode (String.ofList (c :: s.toList)) = String.utf8EncodeChar c ++ encode s := by
  rw [encode_ofList, octets_cons, octets_toList]

/-- A fault of what follows a character is a fault of the whole, as many octets further on. -/
theorem IsFault.behind {bytes : Bytes} {f : Fault} (h : IsFault bytes f) (c : Char) :
    ∃ f, IsFault (String.utf8EncodeChar c ++ bytes) f := by
  cases h with
  | @cutOff s rest h hrest =>
    have hwhole : String.utf8EncodeChar c ++ bytes =
        encode (String.ofList (c :: s.toList)) ++ rest := by
      rw [h, encode_cons, List.append_assoc]
    exact ⟨_, .cutOff hwhole hrest⟩
  | @refused s rest length h hrest =>
    have hwhole : String.utf8EncodeChar c ++ bytes =
        encode (String.ofList (c :: s.toList)) ++ rest := by
      rw [h, encode_cons, List.append_assoc]
    exact ⟨_, .refused hwhole hrest⟩

/-- Octets are a text, or something is wrong with them. -/
theorem text_or_fault (bytes : Bytes) : (∃ s, bytes = encode s) ∨ ∃ f, IsFault bytes f := by
  -- The induction is on how many octets there are, for a character takes up to four of them at
  -- once.
  induction hlength : bytes.length using Nat.strongRecOn generalizing bytes with
  | _ n ih =>
    subst hlength
    by_cases hnil : bytes = []
    · exact .inl ⟨"", hnil⟩
    have hopens := opens_pieces hnil
    generalize pieces bytes = opened at hopens
    cases hopens with
    | char c rest =>
      have hshorter : rest.length < (String.utf8EncodeChar c ++ rest).length := by
        rw [List.length_append, String.length_utf8EncodeChar]
        exact Nat.lt_add_of_pos_left c.utf8Size_pos
      rcases ih _ hshorter rest rfl with ⟨s, hs⟩ | ⟨f, hf⟩
      · left
        refine ⟨String.ofList (c :: s.toList), ?_⟩
        rw [encode_cons, hs]
      · right
        exact hf.behind c
    | cutOff h => exact .inr ⟨_, .cutOff (s := "") (by rfl) h⟩
    | refused h more => exact .inr ⟨_, .refused (s := "") (by rfl) h⟩

/-! ### Read for what they are -/

/-- No character goes on with the octets of another one. -/
theorem eq_of_isPrefix {c d : Char} (h : String.utf8EncodeChar c <+: String.utf8EncodeChar d) :
    c = d := by
  obtain ⟨back, hback⟩ := h
  have hpieces := pieces_whole d
  rw [← hback, pieces_utf8EncodeChar] at hpieces
  injection hpieces with hpiece
  injection hpiece

theorem IsCutOff.none_whole {bytes : Bytes} (h : IsCutOff bytes) (c : Char) :
    ¬ String.utf8EncodeChar c <+: bytes := by
  intro hc
  obtain ⟨d, hd⟩ := h.begins
  have heq : c = d := eq_of_isPrefix (hc.trans hd)
  subst heq
  exact h.not_whole c (hd.eq_of_length_le hc.length_le)

/-- Octets are not both a piece of a character and what no character goes on like. -/
theorem IsRefused.not_begins {bytes : Bytes} {length : Nat} (h : IsRefused bytes length) :
    ¬ Begins bytes := by
  intro hbegins
  have htake : Begins (bytes.take (bytes.length + length + 1)) := by
    rwa [List.take_of_length_le (by omega)]
  have hle := h.longest _ htake
  omega

theorem IsRefused.le {bytes : Bytes} {length length' : Nat} (h : IsRefused bytes length)
    (h' : IsRefused bytes length') : length ≤ length' := by
  rcases h.stretch with hone | hbegins
  · have hpos := h'.pos
    omega
  · exact h'.longest length hbegins

theorem pieces_of_isCutOff {bytes : Bytes} (h : IsCutOff bytes) : pieces bytes = [.cutOff] := by
  have hopens := opens_pieces h.nonempty
  generalize pieces bytes = opened at hopens
  cases hopens with
  | char c rest => exact absurd (List.prefix_append _ rest) (h.none_whole c)
  | cutOff _ => rfl
  | refused hrefused more => exact absurd h.begins hrefused.not_begins

theorem pieces_of_isRefused {bytes : Bytes} {length : Nat} (h : IsRefused bytes length) :
    ∃ more, pieces bytes = .refused length :: more := by
  have hne : bytes ≠ [] := by
    intro hnil
    apply h.not_begins
    rw [hnil]
    exact ⟨'a', List.nil_prefix⟩
  have hopens := opens_pieces hne
  generalize pieces bytes = opened at hopens
  cases hopens with
  | char c rest => exact absurd (List.prefix_append _ rest) (h.none_whole c)
  | cutOff hcut => exact absurd hcut.begins h.not_begins
  | @refused _ other hrefused more =>
    have hsame : other = length := Nat.le_antisymm (hrefused.le h) (h.le hrefused)
    exact ⟨more, by rw [hsame]⟩

/-- What is wrong with octets is what they are refused for. -/
theorem decode_of_isFault {bytes : Bytes} {f : Fault} (h : IsFault bytes f) :
    decode bytes = .error f := by
  cases h with
  | cutOff h hrest =>
    rw [h]
    apply decode_of_error
    rw [pieces_of_isCutOff hrest]
    rfl
  | refused h hrest =>
    rw [h]
    apply decode_of_error
    obtain ⟨more, hpieces⟩ := pieces_of_isRefused hrest
    rw [hpieces]
    rfl

/-! ## Which octets are read -/

theorem decode_of_eq_encode {bytes : Bytes} {s : String} (h : bytes = encode s) :
    decode bytes = .ok s := by
  rw [h, decode_encode]

/-- Octets are read as a text if they are the octets of it. -/
theorem decode_eq_ok_iff {bytes : Bytes} {s : String} : decode bytes = .ok s ↔ bytes = encode s :=
  eq_ok_iff_of_total (fun _ => decode_of_eq_encode) (fun _ => decode_of_isFault)
    (text_or_fault bytes)

/-- One text begins with another if its octets do. -/
theorem encode_isPrefix_encode_iff {s t : String} :
    encode s <+: encode t ↔ s.toList <+: t.toList := by
  constructor
  · rintro ⟨rest, hrest⟩
    have hpieces := pieces_octets_append s.toList rest
    rw [octets_toList, hrest, encode, pieces_flatMap_utf8EncodeChar] at hpieces
    have hchars : s.toList.map Piece.char <+: t.toList.map Piece.char := ⟨pieces rest, hpieces.symm⟩
    have hinjective : Function.Injective Piece.char := by
      intro c d h
      exact Piece.char.inj h
    exact (List.prefix_map_iff_of_injective hinjective).1 hchars
  · rintro ⟨more, hmore⟩
    refine ⟨octets more, ?_⟩
    rw [← octets_toList, ← octets_toList, ← octets_append, hmore]

end RecordBoard.Utf8
