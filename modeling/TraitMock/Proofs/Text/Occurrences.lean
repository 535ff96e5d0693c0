import Mathlib.Data.List.Infix
import TraitMock.Text.Lines

namespace TraitMock.Text

variable {part xs ys sep : List Char} {c : Char}

theorem containsChars_iff {cs : List Char} : containsChars part cs = true ↔ part <:+: cs := by
  induction cs with
  | nil => simp [containsChars]
  | cons c cs ih => simp [containsChars, ih, List.infix_cons_iff]

/-- A part that begins a text ends before the first character that it does not have. -/
theorem prefix_append_cons_iff (hc : c ∉ part) : part <+: xs ++ c :: ys ↔ part <+: xs := by
  induction xs generalizing part with
  | nil =>
    cases part with
    | nil => simp
    | cons p part =>
      have hp : p ≠ c := fun heq => hc (by simp [heq])
      simp [List.cons_prefix_cons, hp]
  | cons x xs ih =>
    cases part with
    | nil => simp
    | cons p part =>
      have hrest := ih fun hmem => hc (List.mem_cons_of_mem p hmem)
      rw [List.cons_append, List.cons_prefix_cons, List.cons_prefix_cons, hrest]

theorem infix_append_cons_iff (hc : c ∉ part) : part <:+: xs ++ c :: ys ↔ part <:+: xs ∨ part <:+: ys := by
  induction xs with
  | nil =>
    have hprefix : part <+: [] ++ c :: ys ↔ part <+: [] := prefix_append_cons_iff hc
    rw [List.nil_append] at hprefix ⊢
    rw [List.infix_cons_iff, hprefix, List.prefix_nil, List.infix_nil]
  | cons x xs ih =>
    have hprefix : part <+: x :: xs ++ c :: ys ↔ part <+: x :: xs := prefix_append_cons_iff hc
    rw [List.cons_append] at hprefix ⊢
    rw [List.infix_cons_iff, hprefix, ih, List.infix_cons_iff, or_assoc]

private theorem infix_append_sep_iff (hne : sep ≠ []) (hsep : ∀ c ∈ sep, c ∉ part) :
    part <:+: xs ++ sep ++ ys ↔ part <:+: xs ∨ part <:+: ys := by
  induction sep generalizing xs with
  | nil => exact absurd rfl hne
  | cons c sep ih =>
    obtain ⟨hc, hrest⟩ := List.forall_mem_cons.mp hsep
    rw [List.append_assoc, List.cons_append, infix_append_cons_iff hc]
    by_cases hlast : sep = []
    · rw [hlast, List.nil_append]
    · have hback : part <:+: [] ++ sep ++ ys ↔ part <:+: [] ∨ part <:+: ys := ih hlast hrest
      rw [List.nil_append, List.infix_nil] at hback
      rw [hback, ← or_assoc]
      refine or_congr_left (or_iff_left_of_imp ?_)
      rintro rfl
      simp

theorem contains_iff {s part : String} : contains s part = true ↔ part.toList <:+: s.toList := containsChars_iff

theorem contains_append_iff {s t part sep : String} (hne : sep ≠ "") (hsep : ∀ c ∈ sep.toList, c ∉ part.toList) :
    contains (s ++ sep ++ t) part = true ↔ contains s part = true ∨ contains t part = true := by
  simp only [contains_iff, String.toList_append]
  exact infix_append_sep_iff (by simpa using hne) hsep

/-- A part occurs in a joined text if it occurs in one of the texts that were joined. -/
theorem contains_intercalate_iff {part sep : String} (hpart : part ≠ "") (hne : sep ≠ "")
    (hsep : ∀ c ∈ sep.toList, c ∉ part.toList) (texts : List String) :
    contains (sep.intercalate texts) part = true ↔ ∃ t ∈ texts, contains t part = true := by
  induction texts with
  | nil => simp [contains_iff, hpart]
  | cons first rest ih =>
    by_cases hrest : rest = []
    · simp [hrest]
    · rw [String.intercalate_cons_of_ne_nil hrest, contains_append_iff hne hsep, ih, List.exists_mem_cons_iff]

end TraitMock.Text
