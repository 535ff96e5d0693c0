import TraitMock.Modules.Import
import TraitMock.Proofs.Syntax.ImportText

namespace TraitMock

open Syntax (AllValid FileWritten Fit ImportExpr ImportPath IsWord declLines parse tokens treesOf)
open Syntax.Shape (word mark)

/-- What one leaf of a tree of imports introduces. -/
structure Introduced where
  segments : List String
  newName : Option String
  isGlob : Bool
  deriving DecidableEq, Repr

namespace Introduced

/-- The name that is bound in the module. -/
def name (i : Introduced) : String := i.newName.getD (i.segments.getLast?.getD "")

def binding (i : Introduced) : Binding := ⟨⟨Text.joinPath i.segments, i.newName⟩, i.isGlob⟩

/-- The declaration that introduces nothing else. -/
def single (i : Introduced) : ImportExpr :=
  if i.isGlob then .glob ⟨false, i.segments⟩
  else .item ⟨false, i.segments.dropLast⟩ (i.segments.getLast?.getD "") i.newName

end Introduced

section Leaves

mutual

/-- What a tree introduces that stands behind some segments, leaf by leaf. -/
def Syntax.ImportExpr.introduced (front : List String) : ImportExpr → List Introduced
  | .item p last newName => [⟨front ++ p.segments ++ [last], newName, false⟩]
  | .itself newName => [⟨front, newName, false⟩]
  | .glob p => [⟨front ++ p.segments, none, true⟩]
  | .group p trees => introducedBy (front ++ p.segments) trees

def introducedBy (front : List String) : List ImportExpr → List Introduced
  | [] => []
  | t :: rest => t.introduced front ++ introducedBy front rest

end

/-- Names that can be the segments of a path. -/
def AreWords (segs : List String) : Prop := ∀ s ∈ segs, IsWord s

instance : DecidablePred AreWords := fun segs => inferInstanceAs (Decidable (∀ s ∈ segs, IsWord s))

variable {front back : List String}

theorem AreWords.append (hfront : AreWords front) (hback : AreWords back) : AreWords (front ++ back) := by
  rw [AreWords, List.forall_mem_append]
  exact ⟨hfront, hback⟩

theorem joinPath_eq_empty_iff (h : AreWords front) : Text.joinPath front = "" ↔ front = [] := by
  constructor
  · intro hempty
    cases front with
    | nil => rfl
    | cons s rest =>
      have hs := (h s List.mem_cons_self).ne_empty
      have hsegments : Text.segments (Text.joinPath (s :: rest)) = s :: rest :=
        Text.segments_joinPath (by simp) fun x hx => (h x hx).isName
      rw [hempty, show Text.segments "" = [""] by decide] at hsegments
      exact absurd (List.cons.inj hsegments).1.symm hs
  · rintro rfl
    rfl

/-- Joining paths is appending their segments. -/
theorem joined_joinPath (hfront : AreWords front) (hback : AreWords back) :
    Binding.joined (Text.joinPath front) (Text.joinPath back) = Text.joinPath (front ++ back) := by
  unfold Binding.joined
  by_cases hf : front = []
  · subst hf
    rfl
  · rw [if_neg (mt (joinPath_eq_empty_iff hfront).mp hf)]
    by_cases hb : back = []
    · subst hb
      rw [List.append_nil]
      rfl
    · rw [if_neg (mt (joinPath_eq_empty_iff hback).mp hb), Text.joinPath_append hf hb]

theorem withoutSelf_joinPath {last : String} (h : AreWords (front ++ [last])) :
    Binding.withoutSelf (Text.joinPath (front ++ [last])) =
      if last = "self" then Text.joinPath front else Text.joinPath (front ++ [last]) := by
  have hsegments : Text.segments (Text.joinPath (front ++ [last])) = front ++ [last] :=
    Text.segments_joinPath (by simp) fun s hs => (h s hs).isName
  simp [Binding.withoutSelf, hsegments]

mutual

/-- The bindings of a tree are what its leaves introduce. -/
theorem ofTree_tree : (t : ImportExpr) → ∀ (front : List String), AreWords front → t.IsValid front →
    Binding.ofTree (Text.joinPath front) t.tree = (t.introduced front).map Introduced.binding
  | .item p last newName => fun front hfront hvalid => by
    obtain ⟨hwords, hlast, _⟩ := hvalid
    have hall := hfront.append hwords
    have hjoined := joined_joinPath hfront hwords
    have hself : Binding.withoutSelf (Text.joinPath (front ++ (p.segments ++ [last]))) =
        Text.joinPath (front ++ (p.segments ++ [last])) := by
      rw [← List.append_assoc] at hall ⊢
      rw [withoutSelf_joinPath hall, if_neg hlast]
    cases newName with
    | none => simp [ImportExpr.tree, Binding.ofTree, ImportExpr.introduced, Introduced.binding, hjoined]
    | some a => simp [ImportExpr.tree, Binding.ofTree, ImportExpr.introduced, Introduced.binding, hjoined, hself]
  | .itself newName => fun front hfront hvalid => by
    have hself : AreWords ["self"] := by
      intro s hs
      rw [List.mem_singleton.mp hs]
      exact .inl (by decide)
    have hnonempty : Text.joinPath front ≠ "" := mt (joinPath_eq_empty_iff hfront).mp hvalid.1
    have hjoined := joined_joinPath hfront hself
    have hwithout := withoutSelf_joinPath (hfront.append hself)
    have hsingle : Text.joinPath ["self"] = "self" := by decide
    rw [if_pos rfl] at hwithout
    rw [hsingle] at hjoined
    cases newName with
    | none => simp [ImportExpr.tree, Binding.ofTree, ImportExpr.introduced, Introduced.binding, hnonempty]
    | some a => simp [ImportExpr.tree, Binding.ofTree, ImportExpr.introduced, Introduced.binding, hjoined, hwithout]
  | .glob p => fun front hfront hvalid => by
    have hjoined := joined_joinPath hfront hvalid
    simp [ImportExpr.tree, Binding.ofTree, ImportExpr.introduced, Introduced.binding, hjoined]
  | .group p trees => fun front hfront hvalid => by
    obtain ⟨hwords, htrees⟩ := hvalid
    rw [ImportExpr.tree, Binding.ofTree, joined_joinPath hfront hwords, ImportExpr.introduced]
    exact ofTrees_treesOf trees (front ++ p.segments) (hfront.append hwords) htrees

theorem ofTrees_treesOf : (trees : List ImportExpr) → ∀ (front : List String), AreWords front →
    AllValid front trees →
    Binding.ofTrees (Text.joinPath front) (treesOf trees) = (introducedBy front trees).map Introduced.binding
  | [] => fun _ _ _ => rfl
  | t :: rest => fun front hfront hvalid => by
    rw [treesOf, Binding.ofTrees, introducedBy, List.map_append, ofTree_tree t front hfront hvalid.1,
      ofTrees_treesOf rest front hfront hvalid.2]

end

end Leaves

section Files

/-- The declarations of a text import the trees, in this order. -/
def Declares (source : String) (trees : List ImportExpr) : Prop := ∃ ts, tokens source = some ts ∧ FileWritten trees ts

/-- The bindings that are found in a text, if it is well-formed. -/
def bindingsOf? (source : String) : Option (List Binding) := (parse source).map Binding.ofEntries

variable {source : String} {trees : List ImportExpr}

theorem allValid_of_written {ts : List Syntax.Token} (h : FileWritten trees ts) : AllValid [] trees := by
  induction h with
  | done => trivial
  | decl ht _ _ ih => exact ⟨ht, ih⟩
  | other _ _ _ _ ih => exact ih

private theorem ofEntries_eq (entries : List Syntax.Entry) :
    Binding.ofEntries entries = Binding.ofTrees "" (entries.filterMap Syntax.Entry.importTree?) := by
  induction entries with
  | nil => rfl
  | cons e rest ih =>
    have hcons : Binding.ofEntries (e :: rest) = Binding.ofEntries [e] ++ Binding.ofEntries rest := by
      simp [Binding.ofEntries]
    rw [hcons, ih]
    cases hitem : e.item with
    | importDecl tree =>
      have htree : e.importTree? = some tree := by simp [Syntax.Entry.importTree?, hitem]
      rw [List.filterMap_cons_some htree, Binding.ofTrees]
      simp [Binding.ofEntries, hitem]
    | _ =>
      have htree : e.importTree? = none := Syntax.Entry.importTree?_eq_none (by simp [hitem])
      rw [List.filterMap_cons_none htree]
      simp [Binding.ofEntries, hitem]

/-- The bindings of a text are those that its declarations introduce. -/
theorem bindingsOf?_eq (h : Declares source trees) :
    bindingsOf? source = some ((introducedBy [] trees).map Introduced.binding) := by
  obtain ⟨ts, htokens, hwritten⟩ := h
  obtain ⟨entries, hparse, htrees⟩ := Syntax.parse_written htokens hwritten
  have hbindings := ofTrees_treesOf trees [] (by simp [AreWords]) (allValid_of_written hwritten)
  rw [bindingsOf?, hparse, Option.map_some, ofEntries_eq, htrees]
  exact congrArg some hbindings

/-- Declarations on lines of their own import their trees. -/
theorem declares_declLines (h : AllValid [] trees) : Declares (declLines trees) trees := by
  have hskip : Syntax.skipInterpreter (declLines trees).toList = (declLines trees).toList := by
    refine Syntax.skipInterpreter_eq_self ?_
    cases trees with
    | nil => simp [declLines]
    | cons t rest => simp [declLines, ImportExpr.declText, String.join_cons]
  obtain ⟨ts, htokens, hfit⟩ := Syntax.tokens_of_closes (Syntax.closes_declLines h) hskip
  exact ⟨ts, htokens, Syntax.fileWritten_of_fit h hfit⟩

/-- Every leaf has a path of words, except that one for all names may stand at the root, without a new name. -/
structure Introduced.IsProper (i : Introduced) : Prop where
  segments : AreWords i.segments
  newName : ∀ a ∈ i.newName, IsWord a
  item : i.isGlob = false → i.segments ≠ []
  glob : i.isGlob = true → i.newName = none

mutual

theorem isProper_introduced : (t : ImportExpr) → ∀ (front : List String), AreWords front → t.IsValid front →
    ∀ i ∈ t.introduced front, i.IsProper
  | .item p last newName => fun front hfront hvalid i hi => by
    obtain rfl := List.mem_singleton.mp hi
    refine ⟨?_, hvalid.2.2, by simp, by simp⟩
    rw [List.append_assoc]
    exact hfront.append hvalid.1
  | .itself newName => fun front hfront hvalid i hi => by
    obtain rfl := List.mem_singleton.mp hi
    exact ⟨hfront, hvalid.2, fun _ => hvalid.1, by simp⟩
  | .glob p => fun front hfront hvalid i hi => by
    obtain rfl := List.mem_singleton.mp hi
    exact ⟨hfront.append hvalid, by simp, by simp, fun _ => rfl⟩
  | .group p trees => fun front hfront hvalid =>
    isProper_introducedBy trees (front ++ p.segments) (hfront.append hvalid.1) hvalid.2

theorem isProper_introducedBy : (trees : List ImportExpr) → ∀ (front : List String), AreWords front →
    AllValid front trees → ∀ i ∈ introducedBy front trees, i.IsProper
  | [] => fun _ _ _ _ hi => absurd hi List.not_mem_nil
  | t :: rest => fun front hfront hvalid i hi => by
    rcases List.mem_append.mp hi with hi | hi
    · exact isProper_introduced t front hfront hvalid.1 i hi
    · exact isProper_introducedBy rest front hfront hvalid.2 i hi

end

namespace Introduced

variable {i : Introduced} {leaves : List Introduced}

/-- A binding has the name of what is introduced: the new one, or the last segment of the path. -/
theorem name_binding (h : i.IsProper) (hitem : i.isGlob = false) : i.binding.item.name = i.name := by
  obtain ⟨segs, newName, isGlob⟩ := i
  rcases List.eq_nil_or_concat segs with rfl | ⟨front, last, rfl⟩
  · exact absurd rfl (h.item hitem)
  · have hlast := Text.lastSegment_joinPath front (h.segments last (by simp)).isName
    cases newName with
    | none => simpa [binding, Import.name, name] using hlast
    | some a => rfl

private theorem introduced_single (h : i.IsProper) : i.single.introduced [] = [i] := by
  obtain ⟨segs, newName, isGlob⟩ := i
  cases isGlob with
  | true =>
    obtain rfl : newName = none := h.glob rfl
    simp [single, ImportExpr.introduced]
  | false =>
    rcases List.eq_nil_or_concat segs with rfl | ⟨front, last, rfl⟩
    · exact absurd rfl (h.item rfl)
    · simp [single, ImportExpr.introduced]

/-- Declarations with a single path introduce their leaves again. -/
theorem introducedBy_singles (h : ∀ i ∈ leaves, i.IsProper) : introducedBy [] (leaves.map single) = leaves := by
  induction leaves with
  | nil => rfl
  | cons i rest ih =>
    obtain ⟨hi, hrest⟩ := List.forall_mem_cons.mp h
    rw [List.map_cons, introducedBy, introduced_single hi, ih hrest, List.singleton_append]

/-- The path of an item ends in its name, which is not the keyword for the module itself. -/
def EndsInName (i : Introduced) : Prop := i.isGlob = false → i.segments.getLast? ≠ some "self"

instance (i : Introduced) : Decidable i.EndsInName := inferInstanceAs (Decidable (i.isGlob = false → _))

/-- The single path of a leaf can be written. -/
theorem isValid_single (h : i.IsProper) (hname : i.EndsInName) : i.single.IsValid [] := by
  obtain ⟨segs, newName, isGlob⟩ := i
  cases isGlob with
  | true => exact h.segments
  | false =>
    rcases List.eq_nil_or_concat segs with rfl | ⟨front, last, rfl⟩
    · exact absurd rfl (h.item rfl)
    · have hlast : last ≠ "self" := by simpa using hname rfl
      have hwords : AreWords (front ++ [last]) := by simpa using h.segments
      have hvalid : (ImportExpr.item ⟨false, front⟩ last newName).IsValid [] := ⟨hwords, hlast, h.newName⟩
      simpa [single] using hvalid

private theorem allValid_singles (h : ∀ i ∈ leaves, i.IsProper) (hnames : ∀ i ∈ leaves, i.EndsInName) :
    AllValid [] (leaves.map single) := by
  induction leaves with
  | nil => trivial
  | cons i rest ih =>
    obtain ⟨hi, hrest⟩ := List.forall_mem_cons.mp h
    obtain ⟨hname, hnames⟩ := List.forall_mem_cons.mp hnames
    exact ⟨isValid_single hi hname, ih hrest hnames⟩

end Introduced

/-- Imports are flattened as they are written: each leaf of each tree gives one binding, in order, with its whole path;
    the binding of an item has the name that the import gives it; and declarations with one path each, which can be
    written unless a path ends in `self`, give the same bindings as the trees that introduce these paths. -/
theorem bindings_of_imports (h : Declares source trees) :
    bindingsOf? source = some ((introducedBy [] trees).map Introduced.binding) ∧
      (∀ i ∈ introducedBy [] trees, i.isGlob = false → i.binding.item.name = i.name) ∧
      (∀ flat, Declares flat ((introducedBy [] trees).map Introduced.single) → bindingsOf? flat = bindingsOf? source) ∧
      ((∀ i ∈ introducedBy [] trees, i.EndsInName) →
        bindingsOf? (declLines ((introducedBy [] trees).map Introduced.single)) = bindingsOf? source) := by
  have hvalid : AllValid [] trees := by
    obtain ⟨ts, _, hwritten⟩ := h
    exact allValid_of_written hwritten
  have hproper := isProper_introducedBy trees [] (by simp [AreWords]) hvalid
  have hflat : ∀ flat, Declares flat ((introducedBy [] trees).map Introduced.single) →
      bindingsOf? flat = bindingsOf? source := fun flat hflat => by
    rw [bindingsOf?_eq hflat, bindingsOf?_eq h, Introduced.introducedBy_singles hproper]
  refine ⟨bindingsOf?_eq h, fun i hi => Introduced.name_binding (hproper i hi), hflat, fun hnames => ?_⟩
  exact hflat _ (declares_declLines (Introduced.allValid_singles hproper hnames))

/-- A module, an item of it under a new name, and all items of a module below it. -/
def ioImports : ImportExpr :=
  .group ⟨false, ["std", "io"]⟩ [.itself none, .item ⟨false, []⟩ "Read" (some "R"), .group ⟨false, ["fmt"]⟩
    [.glob ⟨false, []⟩]]

private theorem allValid_ioImports : AllValid [] [ioImports] := by
  have hword : ∀ s ∈ ["std", "io", "fmt", "Read", "R"], IsWord s := by
    have hplain : ∀ s ∈ ["std", "io", "fmt", "Read", "R"], Syntax.IsPlain s.toList := by decide
    exact fun s hs => .inl (hplain s hs)
  simp only [List.forall_mem_cons] at hword
  simp [ioImports, AllValid, ImportExpr.IsValid, hword]

theorem bindings_of_imports_nested :
    let leaves : List Binding :=
      [⟨⟨"std::io", none⟩, false⟩, ⟨⟨"std::io::Read", some "R"⟩, false⟩, ⟨⟨"std::io::fmt", none⟩, true⟩]
    Declares "use std::io::{self, Read as R, fmt::{*}};\n" [ioImports] ∧
      bindingsOf? "use std::io::{self, Read as R, fmt::{*}};\n" = some leaves ∧
      bindingsOf? "use std::io;\nuse std::io::Read as R;\nuse std::io::fmt::*;\n" = some leaves := by
  have htext : declLines [ioImports] = "use std::io::{self, Read as R, fmt::{*}};\n" := by decide +kernel
  have hflat : declLines ((introducedBy [] [ioImports]).map Introduced.single) =
      "use std::io;\nuse std::io::Read as R;\nuse std::io::fmt::*;\n" := by decide +kernel
  have hdeclares := declares_declLines allValid_ioImports
  rw [htext] at hdeclares
  obtain ⟨hbindings, -, -, hsingles⟩ := bindings_of_imports hdeclares
  refine ⟨hdeclares, hbindings, ?_⟩
  rw [← hflat, hsingles (by decide), hbindings]
  rfl

/-- A comment inside a path stays in the path of the binding, though the tokens are those of a declaration of
    `std::collections::HashMap`. -/
theorem bindings_of_commented_path :
    let tree : ImportExpr := .item ⟨false, ["std", "collections"]⟩ "HashMap" none
    let source := "use std:: /* the map */ collections::HashMap;"
    tree.IsValid [] ∧
      (∃ ts ∈ tokens source, Fit ts [word "use", word "std", mark "::", word "collections", mark "::", word "HashMap",
        mark ";"]) ∧
      bindingsOf? source = some [⟨⟨"std::/*themap*/collections::HashMap", none⟩, false⟩] ∧
      (tree.introduced []).map Introduced.binding = [⟨⟨"std::collections::HashMap", none⟩, false⟩] := by
  have hplain : ∀ s ∈ ["std", "collections", "HashMap"], Syntax.IsPlain s.toList := by decide
  exact ⟨⟨fun s hs => .inl (hplain s hs), by decide, by simp⟩, by decide +kernel, by decide +kernel, by decide⟩

end Files

end TraitMock
