import Mathlib.Data.List.DropRight
import TraitMock.Proofs.Text.Segments
import TraitMock.Value.TypeName

namespace TraitMock.TypeName

open Text (IsName)

section Scanning

/-- A character that belongs to no identifier and to no double colon. -/
def IsDelimiter (c : Char) : Prop := isIdentChar c = false ∧ c ≠ ':'

instance : DecidablePred IsDelimiter := fun c => inferInstanceAs (Decidable (isIdentChar c = false ∧ c ≠ ':'))

private theorem ne_colon_of_isIdentChar {c : Char} (h : isIdentChar c = true) : c ≠ ':' := by
  rintro rfl
  exact absurd h (by decide)

private theorem shortenFrom_ident {c : Char} (h : isIdentChar c = true) (done segment rest : List Char) :
    shortenFrom done segment (c :: rest) = shortenFrom done (c :: segment) rest := by
  cases rest with
  | nil => rfl
  | cons d rest => rw [shortenFrom, if_neg fun hcolons => ne_colon_of_isIdentChar h hcolons.1, if_pos h]

/-- What was kept for good stays in front. -/
theorem shortenFrom_append (done front segment cs : List Char) :
    shortenFrom (done ++ front) segment cs = front.reverse ++ shortenFrom done segment cs := by
  fun_induction shortenFrom done segment cs with
  | case1 done segment => simp [shortenFrom]
  | case2 done segment c => simp [shortenFrom]
  | case3 done segment c d rest hcolons ih => rw [shortenFrom, if_pos hcolons, ih]
  | case4 done segment c d rest hcolons hc ih => rw [shortenFrom, if_neg hcolons, if_pos hc, ih]
  | case5 done segment c d rest hcolons hc ih =>
    rw [shortenFrom, if_neg hcolons, if_neg hc, ← ih]
    simp only [List.cons_append, List.append_assoc]

theorem shortenFrom_delimiter {c : Char} (h : IsDelimiter c) (done segment rest : List Char) :
    shortenFrom done segment (c :: rest) = (segment ++ done).reverse ++ c :: shortenFrom [] [] rest := by
  cases rest with
  | nil => simp [shortenFrom]
  | cons d rest =>
    have hfront := shortenFrom_append [] (c :: segment ++ done) [] (d :: rest)
    rw [List.nil_append] at hfront
    rw [shortenFrom, if_neg fun hcolons => h.2 hcolons.1, if_neg (by simp [h.1]), hfront]
    simp

/-- What stands on the two sides of a delimiter is shortened by itself. -/
theorem shortenFrom_append_delimiter {c : Char} (h : IsDelimiter c) (done segment cs rest : List Char) :
    shortenFrom done segment (cs ++ c :: rest) = shortenFrom done segment cs ++ c :: shortenFrom [] [] rest := by
  fun_induction shortenFrom done segment cs with
  | case1 done segment => rw [List.nil_append, shortenFrom_delimiter h]
  | case2 done segment b =>
    rw [List.cons_append, List.nil_append, shortenFrom, if_neg fun hcolons => h.2 hcolons.2]
    split
    · simp [shortenFrom_delimiter h]
    · simp [shortenFrom_delimiter h]
  | case3 done segment b d more hcolons ih =>
    rw [List.cons_append, List.cons_append, shortenFrom, if_pos hcolons, ih]
  | case4 done segment b d more hcolons hb ih =>
    rw [List.cons_append, List.cons_append, shortenFrom, if_neg hcolons, if_pos hb, ← List.cons_append, ih]
  | case5 done segment b d more hcolons hb ih =>
    rw [List.cons_append, List.cons_append, shortenFrom, if_neg hcolons, if_neg hb, ← List.cons_append, ih]

/-- A double colon drops the run of letters, numbers and underscores in front of it. -/
theorem shortenFrom_run {run : List Char} (h : ∀ c ∈ run, isIdentChar c = true) (done segment rest : List Char) :
    shortenFrom done segment (run ++ ':' :: ':' :: rest) = shortenFrom done [] rest := by
  induction run generalizing segment with
  | nil => rw [List.nil_append, shortenFrom, if_pos ⟨rfl, rfl⟩]
  | cons c run ih =>
    obtain ⟨hc, hrun⟩ := List.forall_mem_cons.mp h
    rw [List.cons_append, shortenFrom_ident hc, ih hrun]

theorem shortenFrom_of_not_mem {cs : List Char} (h : ':' ∉ cs) (done segment : List Char) :
    shortenFrom done segment cs = (segment ++ done).reverse ++ cs := by
  fun_induction shortenFrom done segment cs with
  | case1 done segment => simp
  | case2 done segment c => simp
  | case3 done segment c d rest hcolons => exact absurd List.mem_cons_self (hcolons.1 ▸ h)
  | case4 done segment c d rest hcolons hc ih => simp [ih (List.not_mem_of_not_mem_cons h)]
  | case5 done segment c d rest hcolons hc ih =>
    rw [ih (List.not_mem_of_not_mem_cons h)]
    simp

/-- What a double colon leaves of the segment in front of it. -/
def remnant (segment : List Char) : List Char := segment.rdropWhile isIdentChar

private theorem shortenFrom_segment {segment : List Char} (h : ':' ∉ segment) (rest : List Char) :
    shortenFrom [] [] (segment ++ ':' :: ':' :: rest) = remnant segment ++ shortenFrom [] [] rest := by
  have hparts : remnant segment ++ segment.rtakeWhile isIdentChar = segment := List.rdropWhile_append_rtakeWhile
  have hrun : ∀ c ∈ segment.rtakeWhile isIdentChar, isIdentChar c = true := fun c => List.mem_rtakeWhile_imp
  by_cases hnone : remnant segment = []
  · rw [hnone, List.nil_append] at hparts ⊢
    rw [← hparts, shortenFrom_run hrun]
  · have hfront := List.dropLast_concat_getLast hnone
    have hkept : ':' ∉ remnant segment := fun hmem => h ((List.rdropWhile_prefix isIdentChar segment).mem hmem)
    have hlast : IsDelimiter ((remnant segment).getLast hnone) :=
      ⟨eq_false_of_ne_true (List.rdropWhile_last_not _ _ hnone), fun heq => hkept (heq ▸ List.getLast_mem hnone)⟩
    have hbefore : ':' ∉ (remnant segment).dropLast := fun hmem => hkept ((List.dropLast_sublist _).mem hmem)
    conv_lhs => rw [← hparts, ← hfront]
    rw [List.append_assoc, List.append_assoc, List.singleton_append, shortenFrom_append_delimiter hlast,
      shortenFrom_of_not_mem hbefore, shortenFrom_run hrun]
    conv_rhs => rw [← hfront]
    simp

theorem remnant_append {run : List Char} {c : Char} (hc : isIdentChar c = false) (front : List Char)
    (hrun : ∀ d ∈ run, isIdentChar d = true) : remnant (front ++ c :: run) = front ++ [c] := by
  have hreverse : (front ++ c :: run).reverse = run.reverse ++ c :: front.reverse := by simp
  rw [remnant, List.rdropWhile, hreverse, List.dropWhile_append_of_pos (by simpa using hrun),
    List.dropWhile_cons_of_neg (by simp [hc])]
  simp

theorem remnant_eq_nil_iff {segment : List Char} : remnant segment = [] ↔ ∀ c ∈ segment, isIdentChar c = true :=
  List.rdropWhile_eq_nil_iff

end Scanning

section Texts

/-- A text that is kept, and behind which shortening starts anew. -/
def IsFront (s : String) : Prop := IsName s ∧ s.toList.getLast?.all (!isIdentChar ·) = true

/-- A text that is kept, and on both sides of which the rest is shortened by itself. -/
def IsSeparator (s : String) : Prop := IsFront s ∧ s.toList.head?.any (!isIdentChar ·) = true

instance : DecidablePred IsFront := fun s =>
  inferInstanceAs (Decidable (IsName s ∧ s.toList.getLast?.all (!isIdentChar ·) = true))

instance : DecidablePred IsSeparator := fun s =>
  inferInstanceAs (Decidable (IsFront s ∧ s.toList.head?.any (!isIdentChar ·) = true))

variable {s t : String}

theorem isName_append (hs : IsName s) (ht : IsName t) : IsName (s ++ t) := by
  rw [IsName, String.toList_append, List.mem_append, not_or]
  exact ⟨hs, ht⟩

theorem isName_intercalate {sep : String} (hsep : IsName sep) {texts : List String} (h : ∀ s ∈ texts, IsName s) :
    IsName (sep.intercalate texts) := by
  induction texts with
  | nil => simp [IsName]
  | cons s texts ih =>
    obtain ⟨hs, htexts⟩ := List.forall_mem_cons.mp h
    by_cases hnil : texts = []
    · simpa [hnil] using hs
    · rw [String.intercalate_cons_of_ne_nil hnil]
      exact isName_append (isName_append hs hsep) (ih htexts)

theorem IsFront.append (hs : IsFront s) (ht : IsFront t) : IsFront (s ++ t) := by
  refine ⟨isName_append hs.1 ht.1, ?_⟩
  rw [String.toList_append, List.getLast?_append]
  cases hlast : t.toList.getLast? with
  | none => exact hs.2
  | some d => simpa [hlast] using ht.2

/-- A text without colons in front of one that ends it. -/
theorem IsSeparator.isFront_append (ht : IsSeparator t) (hs : IsName s) : IsFront (s ++ t) := by
  refine ⟨isName_append hs ht.1.1, ?_⟩
  have hne : t.toList ≠ [] := by
    intro hnil
    simpa [hnil] using ht.2
  rw [String.toList_append, List.getLast?_append_of_ne_nil _ hne]
  exact ht.1.2

theorem short_of_isName (h : IsName s) : short s = s := by
  rw [short, shortenFrom_of_not_mem h]
  simp

theorem short_front (hs : IsFront s) (t : String) : short (s ++ t) = s ++ short t := by
  obtain ⟨hname, hlast⟩ := hs
  rcases List.eq_nil_or_concat' s.toList with hnil | ⟨front, c, hfront⟩
  · rw [String.toList_eq_nil_iff.mp hnil, String.empty_append, String.empty_append]
  · rw [IsName, hfront, List.mem_append, not_or] at hname
    have hident : isIdentChar c = false := by simpa [hfront] using hlast
    have hc : IsDelimiter c := ⟨hident, fun heq => hname.2 (by simp [heq])⟩
    apply String.toList_injective
    simp [short, hfront, shortenFrom_append_delimiter hc, shortenFrom_of_not_mem hname.1]

theorem short_between (hs : IsSeparator s) (t u : String) : short (t ++ s ++ u) = short t ++ s ++ short u := by
  obtain ⟨⟨hname, hlast⟩, hhead⟩ := hs
  obtain ⟨c, hfirst, hident⟩ := (Option.any_eq_true _ _).mp hhead
  obtain ⟨back, hback⟩ := List.head?_eq_some_iff.mp hfirst
  rw [IsName, hback, List.mem_cons, not_or] at hname
  have hc : IsDelimiter c := ⟨by simpa using hident, fun heq => hname.1 heq.symm⟩
  have hrest : IsFront (String.ofList back) := by
    refine ⟨by simpa [IsName] using hname.2, ?_⟩
    cases hend : back.getLast? with
    | none => simp [hend]
    | some d => simpa [hend, hback, List.getLast?_cons] using hlast
  have hback' : shortenFrom [] [] (back ++ u.toList) = back ++ shortenFrom [] [] u.toList := by
    simpa [short] using congrArg String.toList (short_front hrest u)
  apply String.toList_injective
  simp [short, hback, shortenFrom_append_delimiter hc, hback']

theorem short_segment (hs : IsName s) (t : String) :
    short (s ++ "::" ++ t) = String.ofList (remnant s.toList) ++ short t := by
  have hsegment := shortenFrom_segment hs t.toList
  apply String.toList_injective
  simp [short, hsegment]

end Texts

end TraitMock.TypeName
