import RecordBoard.Text.Blank

/-!
# What is left of a text without the white space around it

White space is cut off at both ends and nowhere else.  So a text is what is left of it with white
space around, and of a word with white space around the word is left.

## Main results

* `exists_blank_around` — a text is what is left of it, with white space around.
* `trimChars_of_blank_around` — of a word with white space around the word is left.
-/

namespace RecordBoard.Text

/-- A text is what is left of it, with white space around. -/
theorem exists_blank_around (l : List Char) :
    ∃ before after, l = before ++ trimChars l ++ after ∧ (∀ c ∈ before, isBlank c = true) ∧
      ∀ c ∈ after, isBlank c = true := by
  have hbefore : l.takeWhile isBlank ++ l.dropWhile isBlank = l := List.takeWhile_append_dropWhile
  have hafter : (l.dropWhile isBlank).reverse.takeWhile isBlank ++
    (l.dropWhile isBlank).reverse.dropWhile isBlank =
      (l.dropWhile isBlank).reverse := List.takeWhile_append_dropWhile
  refine ⟨l.takeWhile isBlank, ((l.dropWhile isBlank).reverse.takeWhile isBlank).reverse, ?_, ?_,
    ?_⟩
  · rw [trimChars, List.append_assoc, ← List.reverse_append, hafter, List.reverse_reverse, hbefore]
  · exact List.all_eq_true.1 List.all_takeWhile
  · exact fun c hc => List.all_eq_true.1 List.all_takeWhile c (List.mem_reverse.1 hc)

/-- White space in front is cut off. -/
theorem dropWhile_of_blank_before {before word : List Char}
    (hbefore : ∀ c ∈ before, isBlank c = true) (hword : ∀ c ∈ word, isBlank c = false) :
    (before ++ word).dropWhile isBlank = word := by
  rw [List.dropWhile_append_of_pos hbefore]
  cases word with
  | nil => rfl
  | cons c rest => rw [List.dropWhile_cons, hword c List.mem_cons_self, if_neg Bool.false_ne_true]

/-- Of a word with white space around the word is left. -/
theorem trimChars_of_blank_around {before word after : List Char}
    (hbefore : ∀ c ∈ before, isBlank c = true) (hafter : ∀ c ∈ after, isBlank c = true)
    (hword : ∀ c ∈ word, isBlank c = false) :
    trimChars (before ++ word ++ after) = word := by
  cases word with
  | nil =>
    have hblank : ∀ c ∈ before ++ after, isBlank c = true := fun c hc =>
      (List.mem_append.1 hc).elim (hbefore c) (hafter c)
    have hnone : (before ++ after ++ []).dropWhile isBlank = [] :=
      dropWhile_of_blank_before hblank fun c hc => absurd hc List.not_mem_nil
    rw [List.append_nil] at hnone ⊢
    rw [trimChars, hnone]
    rfl
  | cons c rest =>
    -- The first character stops the cut in front; turned round, the word stops the cut behind.
    have hfront : (before ++ (c :: rest) ++ after).dropWhile isBlank = c :: rest ++ after := by
      rw [List.append_assoc, List.dropWhile_append_of_pos hbefore, List.cons_append,
        List.dropWhile_cons, hword c List.mem_cons_self, if_neg Bool.false_ne_true]
    have hback : (after.reverse ++ (c :: rest).reverse).dropWhile isBlank = (c :: rest).reverse :=
      dropWhile_of_blank_before (fun c hc => hafter c (List.mem_reverse.1 hc))
        (fun c hc => hword c (List.mem_reverse.1 hc))
    rw [trimChars, hfront, List.reverse_append, hback, List.reverse_reverse]

end RecordBoard.Text
