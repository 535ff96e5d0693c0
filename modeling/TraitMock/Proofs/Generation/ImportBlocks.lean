import Mathlib.Data.List.Nodup
import TraitMock.Generation.ImportBlock
import TraitMock.Proofs.Modules.Imports

namespace TraitMock

open Syntax (AllValid ImportExpr IsWord declLines)

section Lines

namespace Generation

variable {line other : String} {lines : List String}

theorem mem_insertLine : other ∈ insertLine line lines ↔ other = line ∨ other ∈ lines := by
  induction lines with
  | nil => simp [insertLine]
  | cons first rest ih =>
    rw [insertLine]
    split
    · rename_i heq
      simp [heq]
    · split
      · simp
      · rw [List.mem_cons, ih, List.mem_cons]
        tauto

private theorem line_lt_of_not_lt (hne : line ≠ other) (h : ¬line < other) : other < line := by
  by_contra hnot
  exact hne (String.le_antisymm (String.not_lt.mp hnot) (String.not_lt.mp h))

/-- A line that is put at its place keeps the lines in order, each of them once. -/
theorem pairwise_insertLine (line : String) (h : lines.Pairwise (· < ·)) : (insertLine line lines).Pairwise (· < ·) := by
  induction lines with
  | nil => simp [insertLine]
  | cons first rest ih =>
    obtain ⟨hfirst, hrest⟩ := List.pairwise_cons.mp h
    rw [insertLine]
    split
    · exact h
    · rename_i hne
      split
      · rename_i hless
        refine List.pairwise_cons.mpr ⟨fun x hx => ?_, h⟩
        rcases List.mem_cons.mp hx with rfl | hx
        · exact hless
        · exact String.lt_trans hless (hfirst x hx)
      · rename_i hnot
        refine List.pairwise_cons.mpr ⟨fun x hx => ?_, ih hrest⟩
        rcases mem_insertLine.mp hx with rfl | hx
        · exact line_lt_of_not_lt hne hnot
        · exact hfirst x hx

private theorem sortedLines_spec (lines : List String) :
    (sortedLines lines).Pairwise (· < ·) ∧ ∀ line, line ∈ sortedLines lines ↔ line ∈ lines := by
  have hfold : ∀ (lines sorted : List String), sorted.Pairwise (· < ·) →
      (lines.foldl (fun sorted line => insertLine line sorted) sorted).Pairwise (· < ·) ∧
        ∀ line, line ∈ lines.foldl (fun sorted line => insertLine line sorted) sorted ↔
          line ∈ sorted ∨ line ∈ lines := by
    intro lines
    induction lines with
    | nil => simp
    | cons first rest ih =>
      intro sorted hsorted
      obtain ⟨hpairwise, hmem⟩ := ih _ (pairwise_insertLine first hsorted)
      refine ⟨hpairwise, fun line => ?_⟩
      rw [List.foldl_cons, hmem, mem_insertLine, List.mem_cons]
      tauto
  simpa [sortedLines] using hfold lines [] .nil

end Generation

end Lines

section Writable

/-- Whether the first segment of the path is one of some names. -/
def Import.RootedIn (roots : List String) (i : Import) : Prop :=
  ∃ root ∈ roots, (Text.segments i.path).head? = some root

/-- Whether the path is made of names, and its last segment and the new name can be bound. -/
structure Import.IsWritable (i : Import) : Prop where
  segments : AreWords (Text.segments i.path)
  last : (Text.segments i.path).getLast? ≠ some "self"
  newName : ∀ a ∈ i.newName, IsWord a

instance : DecidablePred Import.IsWritable := fun i =>
  decidable_of_iff (AreWords (Text.segments i.path) ∧ (Text.segments i.path).getLast? ≠ some "self" ∧
      ∀ a ∈ i.newName, IsWord a)
    ⟨fun ⟨hsegments, hlast, hname⟩ => ⟨hsegments, hlast, hname⟩, fun h => ⟨h.segments, h.last, h.newName⟩⟩

namespace Import

variable {i j : Import}

/-- The tree of which the import is the only leaf. -/
def tree (i : Import) : ImportExpr :=
  .item ⟨false, (Text.segments i.path).dropLast⟩ ((Text.segments i.path).getLast?.getD "") i.newName

theorem segments_path (i : Import) :
    (Text.segments i.path).dropLast ++ [(Text.segments i.path).getLast?.getD ""] = Text.segments i.path := by
  have hne := Text.segments_ne_nil i.path
  rw [List.getLast?_eq_some_getLast hne, Option.getD_some, List.dropLast_append_getLast hne]

private theorem binding_tree (i : Import) : (i.tree.introduced []).map Introduced.binding = [⟨i, false⟩] := by
  simp [tree, ImportExpr.introduced, Introduced.binding, segments_path, Text.joinPath_segments]

/-- An import is written as the declaration of its tree. -/
theorem declText_tree (i : Import) : i.tree.declText = i.render := by
  have hjoined := Syntax.join_leading ⟨false, (Text.segments i.path).dropLast⟩ ((Text.segments i.path).getLast?.getD "")
  rw [segments_path, Text.joinPath_segments, String.join_append] at hjoined
  have hpath : (Syntax.ImportPath.mk false (Text.segments i.path).dropLast).leadingText ++
      (Text.segments i.path).getLast?.getD "" = i.path := by
    simpa [Syntax.ImportPath.leadingText, Syntax.ImportPath.colons] using hjoined
  obtain ⟨path, newName⟩ := i
  cases newName <;> simp [tree, ImportExpr.declText, ImportExpr.text, render, text, Syntax.renamingText, hpath,
    String.append_assoc]

theorem IsWritable.isValid_tree (h : i.IsWritable) : i.tree.IsValid [] := by
  have hne := Text.segments_ne_nil i.path
  have hlast := h.last
  rw [List.getLast?_eq_some_getLast hne] at hlast
  refine ⟨?_, ?_, h.newName⟩
  · rw [segments_path]
    exact h.segments
  · rw [List.getLast?_eq_some_getLast hne]
    simpa using hlast

theorem isStandard_iff (i : Import) : i.isStandard = true ↔ i.RootedIn ["std", "core", "alloc"] := by
  obtain ⟨first, rest, hsegments⟩ := List.exists_cons_of_ne_nil (Text.segments_ne_nil i.path)
  simp [isStandard, isStandardRoot, root, RootedIn, hsegments, or_assoc]

theorem allValid_trees {l : List Import} (h : ∀ i ∈ l, i.IsWritable) : AllValid [] (l.map tree) := by
  induction l with
  | nil => trivial
  | cons i rest ih =>
    obtain ⟨hi, hrest⟩ := List.forall_mem_cons.mp h
    exact ⟨hi.isValid_tree, ih hrest⟩

theorem bindings_trees (l : List Import) :
    (introducedBy [] (l.map tree)).map Introduced.binding = l.map fun i => ⟨i, false⟩ := by
  induction l with
  | nil => rfl
  | cons i rest ih =>
    rw [List.map_cons, introducedBy, List.map_append, binding_tree, ih, List.map_cons, List.singleton_append]

theorem declLines_trees (l : List Import) : declLines (l.map tree) = Generation.linesText (l.map render) := by
  simp [declLines, Generation.linesText, declText_tree, Function.comp_def]

/-- Imports that are written in the same way are the same. -/
theorem render_injective (hi : i.IsWritable) (hj : j.IsWritable) (h : i.render = j.render) : i = j := by
  have hread : ∀ k : Import, k.IsWritable → bindingsOf? (Generation.linesText [k.render]) = some [⟨k, false⟩] := by
    intro k hk
    have hvalid : AllValid [] ([k].map tree) := allValid_trees (by simpa using hk)
    have hbindings := bindingsOf?_eq (declares_declLines hvalid)
    rwa [declLines_trees, bindings_trees] at hbindings
  have hsame := hread i hi
  rw [h, hread j hj] at hsame
  simpa using hsame.symm

end Import

end Writable

section Blocks

namespace Generation

variable {standard other : List Import}

/-- The lines of imports are those of some imports in the order of their lines. -/
theorem exists_importLines (imports : List Import) (h : ∀ i ∈ imports, i.IsWritable) :
    ∃ l : List Import, importLines imports = l.map Import.render ∧ (l.map Import.render).Pairwise (· < ·) ∧
      ∀ i, i ∈ l ↔ i ∈ imports := by
  obtain ⟨hsorted, hmem⟩ := sortedLines_spec (imports.map Import.render)
  have hlines : ∀ lines : List String, (∀ line ∈ lines, ∃ i ∈ imports, i.render = line) →
      ∃ l : List Import, lines = l.map Import.render ∧ ∀ i ∈ l, i ∈ imports := by
    intro lines
    induction lines with
    | nil => exact fun _ => ⟨[], rfl, by simp⟩
    | cons line rest ih =>
      intro hlines
      obtain ⟨⟨i, hi, rfl⟩, hrest⟩ := List.forall_mem_cons.mp hlines
      obtain ⟨l, rfl, hl⟩ := ih hrest
      exact ⟨i :: l, rfl, List.forall_mem_cons.mpr ⟨hi, hl⟩⟩
  obtain ⟨l, hl, hfrom⟩ := hlines _ fun line hline => List.mem_map.mp ((hmem line).mp hline)
  refine ⟨l, hl, hl ▸ hsorted, fun i => ⟨hfrom i, fun hi => ?_⟩⟩
  -- the line of an import is in the block, and no other import has it
  have hline := (hmem i.render).mpr (List.mem_map_of_mem hi)
  rw [hl] at hline
  obtain ⟨j, hj, hrender⟩ := List.mem_map.mp hline
  rwa [← Import.render_injective (h j (hfrom j hj)) (h i hi) hrender]

theorem head_linesText (l : List Import) {more : String} (h : more.toList.head? ≠ some '#') :
    (linesText (l.map Import.render) ++ more).toList.head? ≠ some '#' := by
  cases l with
  | nil => simpa [linesText] using h
  | cons i rest => simp [linesText, Import.render, String.join_cons]

/-- Two groups of lines with a gap between them spell the declarations of their imports. -/
theorem closes_groups (hstandard : ∀ i ∈ standard, i.IsWritable) (hother : ∀ i ∈ other, i.IsWritable)
    {gap : String} (hgap : Syntax.IsGap gap.toList) :
    Syntax.Closes (linesText (standard.map Import.render) ++ gap ++ linesText (other.map Import.render))
      (((standard ++ other).map Import.tree).flatMap ImportExpr.declShapes) := by
  have hfirst := Syntax.closes_declLines (Import.allValid_trees hstandard)
  have hlast := Syntax.closes_declLines (Import.allValid_trees hother)
  have hmiddle : Syntax.Closes gap [] := .of_isGap hgap
  have hboth := (hfirst.append hmiddle fun _ _ => trivial).append hlast fun _ _ => trivial
  rwa [Import.declLines_trees, Import.declLines_trees, List.append_nil, ← List.flatMap_append,
    ← List.map_append] at hboth

/-- Two groups of lines with a gap between them declare their imports. -/
theorem declares_groups (hstandard : ∀ i ∈ standard, i.IsWritable) (hother : ∀ i ∈ other, i.IsWritable)
    (gap : String) (hgap : Syntax.IsGap gap.toList) (hhead : gap.toList.head? ≠ some '#') :
    Declares (linesText (standard.map Import.render) ++ gap ++ linesText (other.map Import.render))
      ((standard ++ other).map Import.tree) := by
  have hall : AllValid [] ((standard ++ other).map Import.tree) := Import.allValid_trees fun i hi =>
    (List.mem_append.mp hi).elim (hstandard i) (hother i)
  have hnotHash : (linesText (standard.map Import.render) ++ gap ++ linesText (other.map Import.render)).toList.head? ≠
      some '#' := by
    have hbehind : (linesText (other.map Import.render) ++ "").toList.head? ≠ some '#' :=
      head_linesText other (by simp)
    rw [String.append_empty] at hbehind
    rw [String.append_assoc]
    refine head_linesText standard ?_
    rw [String.toList_append]
    cases hchars : gap.toList with
    | nil => exact hbehind
    | cons c cs => simpa [hchars] using hhead
  obtain ⟨ts, htokens, hfit⟩ := Syntax.tokens_of_closes (closes_groups hstandard hother hgap)
    (Syntax.skipInterpreter_eq_self hnotHash)
  exact ⟨ts, htokens, Syntax.fileWritten_of_fit hall hfit⟩

/-- A block has two groups of imports: those of the standard library, then the others, each in the order of its lines
    and with an empty line between them if there are both. -/
structure IsLaidOut (s : ImportSet) (standard other : List Import) : Prop where
  mem_standard : ∀ i, i ∈ standard ↔ i ∈ s.toList ∧ i.RootedIn ["std", "core", "alloc"]
  mem_other : ∀ i, i ∈ other ↔ i ∈ s.toList ∧ ¬i.RootedIn ["std", "core", "alloc"]
  standard_sorted : (standard.map Import.render).Pairwise (· < ·)
  other_sorted : (other.map Import.render).Pairwise (· < ·)
  text : importBlock s = linesText (standard.map Import.render) ++ (if standard = [] ∨ other = [] then "" else "\n") ++
    linesText (other.map Import.render)

variable {s : ImportSet}

theorem exists_isLaidOut (h : ∀ i ∈ s.toList, i.IsWritable) : ∃ standard other, IsLaidOut s standard other := by
  obtain ⟨standard, hstandard, hsorted, hmem⟩ := exists_importLines (s.toList.filter (·.isStandard))
    fun i hi => h i (List.mem_of_mem_filter hi)
  obtain ⟨other, hother, hsorted', hmem'⟩ := exists_importLines (s.toList.filter fun i => !i.isStandard)
    fun i hi => h i (List.mem_of_mem_filter hi)
  refine ⟨standard, other, fun i => ?_, fun i => ?_, hsorted, hsorted', ?_⟩
  · rw [hmem, List.mem_filter, Import.isStandard_iff]
  · rw [hmem', List.mem_filter, ← Import.isStandard_iff, Bool.not_eq_true, Bool.not_eq_true']
  · simp [importBlock, hstandard, hother]

theorem IsLaidOut.nodup (h : IsLaidOut s standard other) : (standard ++ other).Nodup := by
  have hgroup : ∀ l : List Import, (l.map Import.render).Pairwise (· < ·) → l.Nodup := by
    intro l hl
    refine List.Nodup.of_map Import.render (hl.imp ?_)
    intro a b hless heq
    exact String.lt_irrefl b (heq ▸ hless)
  refine List.Nodup.append (hgroup _ h.standard_sorted) (hgroup _ h.other_sorted) fun i hi hi' => ?_
  exact ((h.mem_other i).mp hi').2 ((h.mem_standard i).mp hi).2

theorem IsLaidOut.mem_iff (h : IsLaidOut s standard other) (i : Import) : i ∈ standard ++ other ↔ i ∈ s.toList := by
  rw [List.mem_append, h.mem_standard, h.mem_other, ← and_or_left]
  exact and_iff_left (em _)

/-- A block of imports is laid out in two groups, and gives back each of its imports once and nothing else. -/
theorem importBlock_round_trip (s : ImportSet) (h : ∀ i ∈ s.toList, i.IsWritable) :
    ∃ standard other, IsLaidOut s standard other ∧ (standard ++ other).Nodup ∧
      (∀ i, i ∈ standard ++ other ↔ i ∈ s.toList) ∧
      bindingsOf? (importBlock s) = some ((standard ++ other).map fun i => ⟨i, false⟩) := by
  obtain ⟨standard, other, hlaid⟩ := exists_isLaidOut h
  refine ⟨standard, other, hlaid, hlaid.nodup, hlaid.mem_iff, ?_⟩
  have hdeclares := declares_groups (fun i hi => h i ((hlaid.mem_standard i).mp hi).1)
    (fun i hi => h i ((hlaid.mem_other i).mp hi).1) (if standard = [] ∨ other = [] then "" else "\n")
    (by split <;> [exact Syntax.isGap_nil; exact Syntax.isGap_blank (by decide)]) (by split <;> decide)
  rw [hlaid.text, bindingsOf?_eq hdeclares, Import.bindings_trees]

/-- A type that is imported both plainly and under a new name, and two imports of the standard library. -/
def stores : ImportSet :=
  .ofList [⟨"super::Store", none⟩, ⟨"std::sync::Arc", none⟩, ⟨"super::Store", some "S"⟩, ⟨"core::fmt", none⟩]

private theorem isWritable_stores : ∀ i ∈ stores.toList, i.IsWritable := by
  have hsegments : ∀ i ∈ stores.toList, ∀ s ∈ Text.segments i.path, Syntax.IsPlain s.toList := by decide +kernel
  have hlast : ∀ i ∈ stores.toList, (Text.segments i.path).getLast? ≠ some "self" := by decide +kernel
  have hnames : ∀ i ∈ stores.toList, ∀ a ∈ i.newName, Syntax.IsPlain a.toList := by decide +kernel
  exact fun i hi => ⟨fun s hs => .inl (hsegments i hi s hs), hlast i hi, fun a ha => .inl (hnames i hi a ha)⟩

theorem importBlock_round_trip_stores :
    importBlock stores = "use core::fmt;\nuse std::sync::Arc;\n\nuse super::Store as S;\nuse super::Store;\n" ∧
      ∃ standard other, IsLaidOut stores standard other ∧ (standard ++ other).Nodup ∧
        (∀ i, i ∈ standard ++ other ↔ i ∈ stores.toList) ∧
        bindingsOf? (importBlock stores) = some ((standard ++ other).map fun i => ⟨i, false⟩) :=
  ⟨by decide +kernel, importBlock_round_trip stores isWritable_stores⟩

end Generation

end Blocks

end TraitMock
