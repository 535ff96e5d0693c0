import Mathlib.Data.List.DropRight
import TraitMock.Proofs.Text.LineFeeds

namespace TraitMock.Text

section Trimming

variable {c : Char} {cs front back rest : List Char}

theorem rdropWhile_append_cons {p : Char → Bool} (h : p c = false) (front rest : List Char) :
    (front ++ c :: rest).rdropWhile p = front ++ c :: rest.rdropWhile p := by
  induction rest using List.reverseRecOn with
  | nil => rw [List.rdropWhile_concat_neg _ _ _ (by simp [h]), List.rdropWhile_nil]
  | append_singleton rest d ih =>
    rw [← List.cons_append, ← List.append_assoc, List.rdropWhile_concat, List.rdropWhile_concat, ih]
    split
    · rfl
    · simp

theorem rdropWhile_cons {p : Char → Bool} (h : p c = false) (rest : List Char) :
    (c :: rest).rdropWhile p = c :: rest.rdropWhile p :=
  rdropWhile_append_cons h [] rest

theorem rdropWhile_append_of_neg {p : Char → Bool} (h : ∀ c ∈ front, p c = false) (rest : List Char) :
    (front ++ rest).rdropWhile p = front ++ rest.rdropWhile p := by
  rcases List.eq_nil_or_concat' front with rfl | ⟨init, c, rfl⟩
  · rfl
  · have hc : p c = false := h c (by simp)
    rw [List.append_assoc, List.append_assoc, List.singleton_append, List.singleton_append,
      rdropWhile_append_cons hc]

/-- A text is white space, or it has a first character that is none. -/
theorem blanks_or_exists (cs : List Char) :
    (∀ c ∈ cs, isBlank c = true) ∨
      ∃ front c rest, (∀ b ∈ front, isBlank b = true) ∧ isBlank c = false ∧ cs = front ++ c :: rest := by
  induction cs with
  | nil => exact .inl (List.forall_mem_nil _)
  | cons c cs ih =>
    by_cases hc : isBlank c = true
    · rcases ih with hall | ⟨front, d, rest, hfront, hd, rfl⟩
      · exact .inl (List.forall_mem_cons.mpr ⟨hc, hall⟩)
      · exact .inr ⟨c :: front, d, rest, List.forall_mem_cons.mpr ⟨hc, hfront⟩, hd, rfl⟩
    · exact .inr ⟨[], c, cs, List.forall_mem_nil _, eq_false_of_ne_true hc, rfl⟩

theorem trimChars_eq (cs : List Char) : trimChars cs = (dropBlanks cs).rdropWhile isBlank := rfl

theorem dropBlanks_append (h : ∀ c ∈ front, isBlank c = true) (rest : List Char) :
    dropBlanks (front ++ rest) = dropBlanks rest :=
  List.dropWhile_append_of_pos h

theorem dropBlanks_cons (h : isBlank c = false) (rest : List Char) : dropBlanks (c :: rest) = c :: rest :=
  List.dropWhile_cons_of_neg (by simp [h])

private theorem rdropWhile_append_blanks (h : ∀ c ∈ back, isBlank c = true) (cs : List Char) :
    (cs ++ back).rdropWhile isBlank = cs.rdropWhile isBlank := by
  have hreverse : ∀ c ∈ back.reverse, isBlank c = true := by simpa using h
  rw [List.rdropWhile, List.reverse_append, List.dropWhile_append_of_pos hreverse, List.rdropWhile]

theorem trimChars_front (h : ∀ c ∈ front, isBlank c = true) (cs : List Char) :
    trimChars (front ++ cs) = trimChars cs := by
  rw [trimChars_eq, dropBlanks_append h, trimChars_eq]

/-- A text that begins with a character of its own loses white space at its end alone. -/
theorem trimChars_cons (h : isBlank c = false) (rest : List Char) :
    trimChars (c :: rest) = c :: rest.rdropWhile isBlank := by
  rw [trimChars_eq, dropBlanks_cons h, rdropWhile_cons h]

theorem trimChars_append_cons (h : isBlank c = false) (front rest : List Char) :
    trimChars (front ++ c :: rest) = dropBlanks front ++ c :: rest.rdropWhile isBlank := by
  have hdrop : dropBlanks (front ++ c :: rest) = dropBlanks front ++ c :: rest := by
    induction front with
    | nil => exact dropBlanks_cons h rest
    | cons b front ih =>
      by_cases hb : isBlank b = true
      · rw [List.cons_append, dropBlanks, List.dropWhile_cons_of_pos hb, ← dropBlanks, ih, dropBlanks,
          dropBlanks, List.dropWhile_cons_of_pos hb]
      · rw [List.cons_append, dropBlanks_cons (eq_false_of_ne_true hb), dropBlanks_cons (eq_false_of_ne_true hb),
          List.cons_append]
  rw [trimChars_eq, hdrop, rdropWhile_append_cons h]

theorem trimChars_of_blanks (h : ∀ c ∈ cs, isBlank c = true) : trimChars cs = [] := by
  have hnil : trimChars [] = [] := rfl
  rw [← hnil, ← trimChars_front h [], List.append_nil]

theorem trimChars_back (h : ∀ c ∈ back, isBlank c = true) (cs : List Char) :
    trimChars (cs ++ back) = trimChars cs := by
  by_cases hcs : ∀ c ∈ cs, isBlank c = true
  · rw [trimChars_front hcs, trimChars_of_blanks h, trimChars_of_blanks hcs]
  · obtain ⟨c, hmem, hc⟩ : ∃ c ∈ cs, ¬isBlank c = true := by simpa using hcs
    obtain ⟨before, after, rfl⟩ := List.append_of_mem hmem
    have hblank : isBlank c = false := eq_false_of_ne_true hc
    rw [List.append_assoc, List.cons_append, trimChars_append_cons hblank, trimChars_append_cons hblank,
      rdropWhile_append_blanks h]

/-- What is trimmed stands between white space. -/
theorem exists_trimChars (cs : List Char) :
    ∃ front back, (∀ c ∈ front, isBlank c = true) ∧ (∀ c ∈ back, isBlank c = true) ∧
      cs = front ++ trimChars cs ++ back := by
  refine ⟨cs.takeWhile isBlank, (dropBlanks cs).rtakeWhile isBlank, fun c => List.mem_takeWhile_imp,
    fun c => List.mem_rtakeWhile_imp, ?_⟩
  rw [trimChars_eq, List.append_assoc, List.rdropWhile_append_rtakeWhile, dropBlanks, List.takeWhile_append_dropWhile]

theorem mem_trimChars (hmem : c ∈ cs) (hc : isBlank c = false) : c ∈ trimChars cs := by
  obtain ⟨front, back, rfl⟩ := List.append_of_mem hmem
  rw [trimChars_append_cons hc]
  exact List.mem_append_right _ List.mem_cons_self

theorem trimChars_eq_self (h : ∀ c ∈ cs, isBlank c = false) : trimChars cs = cs := by
  cases cs with
  | nil => rfl
  | cons c cs =>
    obtain ⟨hc, hcs⟩ := List.forall_mem_cons.mp h
    rw [trimChars_cons hc, List.rdropWhile_eq_self_iff.mpr]
    intro hne
    simp [hcs _ (List.getLast_mem hne)]

theorem trimChars_dropBlanks (cs : List Char) : trimChars (dropBlanks cs) = trimChars cs := by
  conv_rhs => rw [← List.takeWhile_append_dropWhile (p := isBlank) (l := cs)]
  rw [trimChars_front fun c => List.mem_takeWhile_imp]
  rfl

theorem trimChars_rdropWhile (cs : List Char) : trimChars (cs.rdropWhile isBlank) = trimChars cs := by
  conv_rhs => rw [← List.rdropWhile_append_rtakeWhile (p := isBlank) (l := cs)]
  rw [trimChars_back fun c => List.mem_rtakeWhile_imp]

end Trimming

section Lines

variable {line rest : List Char}

theorem linesOf_line (h : '\n' ∉ line) (rest : List Char) :
    linesOf (line ++ '\n' :: rest) = dropReturn line :: linesOf rest := by
  have hne : splitLineFeeds rest ≠ [] := by
    rw [splitLineFeeds_eq_splitAtChar]
    exact splitAtChar_ne_nil _ _
  rw [linesOf, splitLineFeeds_append, splitLineFeeds_of_not_mem h, List.singleton_append, linesOf,
    List.dropLast_cons_of_ne_nil hne, List.getLast?_cons_of_ne_nil hne]
  rfl

theorem linesOf_last (h : '\n' ∉ line) : linesOf line = if line = [] then [] else [line] := by
  rw [linesOf, splitLineFeeds_of_not_mem h]
  rfl

/-- A carriage return at the end of a line is white space like any other. -/
theorem trimChars_dropReturn (line : List Char) : trimChars (dropReturn line) = trimChars line := by
  unfold dropReturn
  split
  · rename_i hlast
    have hblank : ∀ c ∈ ['\r'], isBlank c = true := List.forall_mem_singleton.mpr (by decide)
    conv_rhs => rw [← List.dropLast_append_getLast? '\r' hlast]
    rw [trimChars_back hblank]
  · rfl

end Lines

end TraitMock.Text
