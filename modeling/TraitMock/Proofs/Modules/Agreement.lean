import TraitMock.Proofs.Modules.Placement
import TraitMock.Proofs.Modules.Transparency

namespace TraitMock

open Files (Place Tree)
open Manifest (Target)
open Modules (InPlace PlacedAt Reaches isIdentifier parseSpec)
open TraitMock.Path (IsEntryName ofNames)

namespace Resolver

/-- A file belongs to a target: the name of the crate leads to the target, and of the source directories around the file
    its own is the innermost, or that of a library among those of programs. -/
structure Owns (files : Tree) (ts : List Target) (t : Target) (file : Path) : Prop where
  mem : t ∈ ts
  named : ∀ t' ∈ ts, t'.crateName = t.crateName → t' = t ∨ t.kind = .lib ∧ t'.kind = .bin
  around : file.startsWith (files.canonicalOr t.sourceDirectory) = true
  innermost : ∀ t' ∈ ts, file.startsWith (files.canonicalOr t'.sourceDirectory) = true →
    t' = t ∨ depthWeight (files.canonicalOr t'.sourceDirectory) t'.kind <
      depthWeight (files.canonicalOr t.sourceDirectory) t.kind

/-- A path leads to the directory of the package of a target, which is the library of the package if it has one. -/
structure Houses (files : Tree) (ts : List Target) (t : Target) (dir : Path) : Prop where
  canonical_eq : files.canonical dir = .ok (files.canonicalOr t.directory)
  isDirectory : files.isDirectory (files.canonicalOr t.directory) = true
  isPackage : Manifest.isPackage files (files.canonicalOr t.directory) = true
  alone : ∀ t' ∈ ts, (files.canonicalOr t'.directory).same (files.canonicalOr t.directory) = true →
    t' = t ∨ t.kind = .lib ∧ t'.kind = .bin

/-- The module path that is read off the place of a file. -/
def layoutPath (files : Tree) (t : Target) (file : Path) : List String :=
  if file.same (files.canonicalOr t.rootFile) then [] else modulePathOf (files.canonicalOr t.sourceDirectory) file

private theorem packageOf_eq_with (files : Tree) (t : Target) (file : Path) (names names' : List String) :
    packageOf files t file names =
      { packageOf files t file names' with modulePath := (packageOf files t file names).modulePath } := rfl

section Choosing

variable {α : Type} {weight : α → Nat} {l : List α} {a b : α}

private theorem mem_of_lastHeaviest (h : lastHeaviest weight l = some a) : a ∈ l := by
  induction l with
  | nil => cases h
  | cons b rest ih =>
    rw [lastHeaviest] at h
    split at h
    · exact Option.some.inj h ▸ List.mem_cons_self
    · rename_i c hc
      split at h
      · exact Option.some.inj h ▸ List.mem_cons_self
      · exact List.mem_cons_of_mem b (ih (hc.trans h))

private theorem lastHeaviest_eq (ha : a ∈ l) (h : ∀ b ∈ l, b = a ∨ weight b < weight a) : lastHeaviest weight l = some a := by
  induction l with
  | nil => cases ha
  | cons b rest ih =>
    have hrest : ∀ c ∈ rest, c = a ∨ weight c < weight a := fun c hc => h c (List.mem_cons_of_mem b hc)
    rw [lastHeaviest]
    by_cases hmem : a ∈ rest
    · rw [ih hmem hrest]
      rcases h b List.mem_cons_self with rfl | hlt
      · simp
      · simp only [if_neg (Nat.not_lt_of_gt hlt)]
    · obtain rfl : a = b := (List.mem_cons.mp ha).resolve_right hmem
      split
      · rfl
      · rename_i c hc
        have hcrest := mem_of_lastHeaviest hc
        rcases hrest c hcrest with rfl | hlt
        · exact absurd hcrest hmem
        · rw [if_pos hlt]

/-- The first library of those that are looked for, or else the first of them. -/
theorem find?_lib_or {ts : List Target} {t : Target} {p : Target → Bool} (ht : t ∈ ts) (hp : p t = true)
    (h : ∀ t' ∈ ts, p t' = true → t' = t ∨ t.kind = .lib ∧ t'.kind = .bin) :
    (ts.find? fun t => t.kind = .lib && p t).or (ts.find? p) = some t := by
  have hfirst : t.kind = .bin → ts.find? p = some t := by
    intro hkind
    obtain ⟨t', ht'⟩ := Option.isSome_iff_exists.mp (List.find?_isSome.mpr ⟨t, ht, hp⟩)
    rcases h t' (List.mem_of_find?_eq_some ht') (List.find?_some ht') with rfl | ⟨hlib, -⟩
    · exact ht'
    · rw [hlib] at hkind
      cases hkind
  rcases hlib : ts.find? fun t => t.kind = .lib && p t with _ | t'
  · rw [hlib, Option.none_or]
    cases hkind : t.kind with
    | lib =>
      have hnone := List.find?_eq_none.mp hlib t ht
      simp [hkind, hp] at hnone
    | bin => exact hfirst hkind
  · have hfound := List.find?_some hlib
    simp only [Bool.and_eq_true, decide_eq_true_eq] at hfound
    rcases h t' (List.mem_of_find?_eq_some hlib) hfound.2 with rfl | ⟨-, hbin⟩
    · rw [hlib, Option.some_or]
    · rw [hfound.1] at hbin
      cases hbin

end Choosing

section Answers

variable {files : Tree} {cwd : Path} {tool : BuildTool} {ts : List Target} {t : Target} {r : Resolver}
variable {file path : Path} {input : String} {p : Package}

theorem gives_targets (h : r.known? = some ts) : Gives (targets files) r ts r := by
  unfold targets
  refine gives_bind.mpr ⟨r, r, gives_get.mpr ⟨rfl, rfl⟩, ?_⟩
  rw [h]
  exact gives_pure.mpr ⟨rfl, rfl⟩

private theorem gives_target? (h : r.known? = some ts) (ht : t ∈ ts)
    (hnamed : ∀ t' ∈ ts, t'.crateName = t.crateName → t' = t ∨ t.kind = .lib ∧ t'.kind = .bin) :
    Gives (target? files t.crateName) r (some t) r := by
  unfold target?
  have hchosen := find?_lib_or (p := fun t' => decide (t'.crateName = t.crateName)) ht (decide_eq_true rfl)
    fun t' ht' hname => hnamed t' ht' (of_decide_eq_true hname)
  exact gives_bind.mpr ⟨ts, r, gives_targets h, gives_pure.mpr ⟨hchosen.symm, rfl⟩⟩

private theorem gives_fileForDirectory (h : r.known? = some ts) (ht : t ∈ ts) (hdir : Houses files ts t path) :
    Gives (fileForDirectory files (files.canonicalOr t.directory)) r (files.canonicalOr t.rootFile) r := by
  have hself : (files.canonicalOr t.directory).same (files.canonicalOr t.directory) = true := Path.same_iff.mpr rfl
  have hchosen := find?_lib_or (p := fun t' => (files.canonicalOr t'.directory).same (files.canonicalOr t.directory))
    ht hself hdir.alone
  have hown : ((ts.filter fun t' => (files.canonicalOr t'.directory).same (files.canonicalOr t.directory)).find?
      fun t => t.kind = .lib).or
        (ts.filter fun t' => (files.canonicalOr t'.directory).same (files.canonicalOr t.directory)).head? = some t := by
    rw [List.find?_filter, List.head?_filter]
    simpa only [Bool.and_comm, decide_eq_true_eq, Bool.decide_and, Bool.decide_eq_true] using hchosen
  unfold fileForDirectory
  dsimp only
  rw [if_pos hdir.isPackage]
  refine gives_bind.mpr ⟨ts, r, gives_targets h, ?_⟩
  refine gives_bind.mpr ⟨some t, r, gives_pure.mpr ⟨hown.symm, rfl⟩, ?_⟩
  exact gives_pure.mpr ⟨rfl, rfl⟩

/-- The module in the file that a path leads to. -/
theorem gives_resolvePath {c : Path} (h : r.known? = some ts) (hpath : files.canonical path = .ok c)
    (hfile : Gives (if files.isDirectory c then fileForDirectory files c else pure c) r file r) (howns : Owns files ts t file) :
    Gives (resolvePath files path) r (packageOf files t file (layoutPath files t file)) r := by
  have hchosen : lastHeaviest (fun t => depthWeight (files.canonicalOr t.sourceDirectory) t.kind)
      (ts.filter fun t => file.startsWith (files.canonicalOr t.sourceDirectory)) = some t := by
    refine lastHeaviest_eq (List.mem_filter.mpr ⟨howns.mem, howns.around⟩) fun t' ht' => ?_
    obtain ⟨hmem, haround⟩ := List.mem_filter.mp ht'
    exact howns.innermost t' hmem haround
  unfold resolvePath
  rw [hpath]
  dsimp only
  by_cases hdir : files.isDirectory c = true
  · rw [if_pos hdir] at hfile ⊢
    refine gives_bind.mpr ⟨file, r, hfile, gives_bind.mpr ⟨ts, r, gives_targets h, ?_⟩⟩
    rw [hchosen]
    exact gives_pure.mpr ⟨rfl, rfl⟩
  · rw [if_neg hdir] at hfile ⊢
    refine gives_bind.mpr ⟨file, r, hfile, gives_bind.mpr ⟨ts, r, gives_targets h, ?_⟩⟩
    rw [hchosen]
    exact gives_pure.mpr ⟨rfl, rfl⟩

private theorem gives_resolveSpec {spec : String} {names : List String} (h : r.known? = some ts)
    (hspec : parseSpec spec = .ok (t.crateName :: names)) (hcrate : t.crateName ≠ "crate") (ht : t ∈ ts)
    (hnamed : ∀ t' ∈ ts, t'.crateName = t.crateName → t' = t ∨ t.kind = .lib ∧ t'.kind = .bin)
    (hfile : descend files spec t.rootFile names = .ok file) :
    Gives (resolveSpec files spec) r (packageOf files t (files.canonicalOr file) names) r := by
  unfold resolveSpec
  rw [hspec]
  dsimp only
  rw [if_neg hcrate]
  refine gives_bind.mpr ⟨some t, r, gives_target? h ht hnamed, ?_⟩
  dsimp only
  rw [hfile]
  exact gives_pure.mpr ⟨rfl, rfl⟩

/-- What a resolver finds that knows the targets is what a fresh one answers. -/
theorem freshAnswer_of_gives {complaint : Option String} (h : (fresh cwd tool).loadTargets files = (ts, complaint))
    (hgives : Gives (lookUp files cwd input) ⟨cwd, tool, some ts, complaint, []⟩ p
      ⟨cwd, tool, some ts, complaint, []⟩) :
    freshAnswer files cwd tool (.resolve input) = .ok p := by
  rw [Gives] at hgives
  rw [freshAnswer_of_targets h, outcome_resolve_of_new rfl, outcome_bind, hgives]
  rfl

end Answers

/-- The module path of a file that lies as the module path of its module says. -/
theorem layoutPath_eq {files : Tree} {t : Target} {names : List String} {file : Path}
    (hroot : files.isFile t.rootFile = true) (hplaced : InPlace files t.rootFile names file)
    (hnames : ∀ name ∈ names, isIdentifier name.toList = true) :
    layoutPath files t (files.canonicalOr file) = names := by
  rw [layoutPath]
  by_cases hne : names = []
  · subst hne
    rw [hplaced.reaches.eq_root, if_pos (Path.same_iff.mpr rfl)]
  · obtain ⟨rootPlace, hrootPlace, -, hentry⟩ := Tree.isFile_iff.mp hroot
    obtain ⟨source, last, rfl⟩ := Tree.exists_last_of_file hentry
    obtain ⟨hlast, up, hparent, hup⟩ := Tree.locate_parent hrootPlace hentry
    have howner := hplaced.root_owns hne
    obtain ⟨place, hplace, hplacedAt⟩ := hplaced.placedAt hrootPlace hroot howner hnames
    have hsource : files.canonicalOr t.sourceDirectory = ofNames source := by
      rw [Target.sourceDirectory, hparent, Option.getD_some, Tree.canonicalOr_of_locate hup]
    have hentries := (Tree.reached_of_locate hplace).names
    have hother : (files.canonicalOr file).same (files.canonicalOr t.rootFile) = false := by
      rw [Tree.canonicalOr_of_locate hplace, Tree.canonicalOr_of_locate hrootPlace, Bool.eq_false_iff]
      intro hsame
      obtain rfl := (Path.same_ofNames hentries (Tree.reached_of_locate hrootPlace).names).mp hsame
      rw [Modules.ownsDirectory_eq hlast] at howner
      exact hne (hplacedAt.eq_nil howner)
    rw [hother, if_neg Bool.false_ne_true, hsource, Tree.canonicalOr_of_locate hplace]
    exact hplacedAt.modulePathOf_eq hentries fun name hname =>
      (Modules.isEntryName_of_isIdentifier (hnames name hname)).ne_empty

/-- A module that the declarations of a crate lead to has answers under the path of its file and under its module path:
    the same crate and file, and the same module path if the modules on the way lie where their names say. -/
theorem paths_and_module_paths {files : Tree} {cwd : Path} {tool : BuildTool} {t : Target} {names : List String}
    {file : Path} {input : String}
    (howns : Owns files ((fresh cwd tool).loadTargets files).1 t (files.canonicalOr file))
    (hroot : files.isFile t.rootFile = true) (hreaches : Reaches files t.rootFile names file)
    (hcrate : t.crateName ≠ "crate")
    (hspec : parseSpec (Text.joinPath (t.crateName :: names)) = .ok (t.crateName :: names))
    (hfree : files.has (cwd.join (Text.joinPath (t.crateName :: names))) = true → names = [] ∧
      Houses files ((fresh cwd tool).loadTargets files).1 t (cwd.join (Text.joinPath (t.crateName :: names))))
    (hinput : input ≠ "") (hpath : files.locate (cwd.join input) = files.locate file) :
    ∃ p q, freshAnswer files cwd tool (.resolve input) = .ok p ∧
      freshAnswer files cwd tool (.resolve q.spec) = .ok q ∧
      q = packageOf files t (files.canonicalOr file) names ∧ p = { q with modulePath := p.modulePath } ∧
      (InPlace files t.rootFile names file → p = q) := by
  obtain ⟨ts, complaint, hload⟩ :
      ∃ ts complaint, (fresh cwd tool).loadTargets files = (ts, complaint) := ⟨_, _, rfl⟩
  rw [hload] at howns hfree
  obtain ⟨place, hplace, hsome, hentry⟩ := Tree.isFile_iff.mp (hreaches.isFile hroot)
  obtain ⟨hfirst, hnames⟩ := Modules.isIdentifier_of_parseSpec hspec
  have hreached := Tree.reached_of_locate hplace
  have hcanonical := Tree.canonicalOr_of_locate hplace
  refine ⟨packageOf files t (files.canonicalOr file) (layoutPath files t (files.canonicalOr file)),
    packageOf files t (files.canonicalOr file) names, ?_, ?_, rfl, packageOf_eq_with _ _ _ _ _, ?_⟩
  · have hthere : files.has (cwd.join input) = true := by
      rw [Tree.has, Tree.at?_of_locate (hpath.trans hplace), hsome]
    refine freshAnswer_of_gives hload ?_
    rw [lookUp, if_pos (by simp [hinput, hthere])]
    refine gives_resolvePath rfl (Tree.canonical_eq_ok.mpr ⟨place, hpath.trans hplace, rfl⟩) ?_ howns
    rw [Tree.isDirectory_of_locate (Tree.locate_ofNames hreached) hentry, if_neg Bool.false_ne_true, hcanonical]
    exact gives_pure.mpr ⟨rfl, rfl⟩
  · refine freshAnswer_of_gives hload ?_
    have hspecOf : (packageOf files t (files.canonicalOr file) names).spec =
        Text.joinPath (t.crateName :: names) := rfl
    rw [hspecOf]
    by_cases hthere : files.has (cwd.join (Text.joinPath (t.crateName :: names))) = true
    · -- the crate is named like the directory of its package
      obtain ⟨rfl, hhouses⟩ := hfree hthere
      obtain rfl := hreaches.eq_root
      have hne : Text.joinPath [t.crateName] ≠ "" := by
        intro hempty
        have hcrateName : t.crateName = "" := by simpa [Text.joinPath] using hempty
        rw [hcrateName] at hfirst
        cases hfirst
      rw [lookUp, if_pos (by simp [hne, hthere])]
      have hgives := gives_resolvePath (r := ⟨cwd, tool, some ts, complaint, []⟩) rfl hhouses.canonical_eq
        (by rw [hhouses.isDirectory, if_pos rfl]; exact gives_fileForDirectory rfl howns.mem hhouses) howns
      rw [layoutPath, if_pos (Path.same_iff.mpr rfl)] at hgives
      exact hgives
    · rw [lookUp, if_neg (by simp [hthere])]
      exact gives_resolveSpec rfl hspec hcrate howns.mem howns.named (hreaches.descend_eq _)
  · intro hplaced
    rw [layoutPath_eq hroot hplaced hnames]

theorem paths_of_nested_module :
    ∃ p, freshAnswer smallPackage ⟨"/"⟩ .unused (.resolve "./src/g/../b/c/mod.rs") = .ok p ∧
      freshAnswer smallPackage ⟨"/"⟩ .unused (.resolve "s::b::c") = .ok p ∧ p.modulePath = ["b", "c"] := by
  have hplaced : InPlace smallPackage ⟨"/src/lib.rs"⟩ ["b", "c"] ⟨"/src/b/c/mod.rs"⟩ := by
    have hb : InPlace smallPackage ⟨"/src/lib.rs"⟩ ["b"] ⟨"/src/b.rs"⟩ :=
      .child (by decide) .root (by decide +kernel) (by decide +kernel)
    exact .child (by decide) hb (by decide +kernel) (by decide +kernel)
  have howns : Owns smallPackage ((fresh ⟨"/"⟩ .unused).loadTargets smallPackage).1
      ⟨"s", "s", .lib, ⟨"/"⟩, ⟨"/src/lib.rs"⟩⟩ (smallPackage.canonicalOr ⟨"/src/b/c/mod.rs"⟩) := by
    rw [targets_smallPackage]
    exact ⟨by decide, by decide, by decide +kernel, by decide +kernel⟩
  have hpath : smallPackage.locate (Path.join ⟨"/"⟩ "./src/g/../b/c/mod.rs") =
      smallPackage.locate ⟨"/src/b/c/mod.rs"⟩ := by decide +kernel
  obtain ⟨p, q, hp, hq, hpackage, -, hsame⟩ := paths_and_module_paths howns (by decide +kernel) hplaced.reaches
    (by decide) (by decide +kernel) (fun h => absurd h (by decide +kernel)) (by decide) hpath
  have hspec : q.spec = "s::b::c" := by
    rw [hpackage]
    decide
  rw [hspec] at hq
  refine ⟨p, hp, hsame hplaced ▸ hq, ?_⟩
  rw [hsame hplaced, hpackage]
  rfl

/-- A module whose declaration puts it elsewhere: its file has another module path, which leads nowhere. -/
theorem paths_of_moved_module : Reaches smallPackage ⟨"/src/lib.rs"⟩ ["a"] ⟨"/src/g/a.rs"⟩ ∧
    (freshAnswer smallPackage ⟨"/"⟩ .unused (.resolve "s::a")).toOption =
      some ⟨"s", ⟨"/"⟩, ⟨"/src/lib.rs"⟩, ["a"], ⟨"/src/g/a.rs"⟩⟩ ∧
    (freshAnswer smallPackage ⟨"/"⟩ .unused (.resolve "src/g/a.rs")).toOption =
      some ⟨"s", ⟨"/"⟩, ⟨"/src/lib.rs"⟩, ["g", "a"], ⟨"/src/g/a.rs"⟩⟩ ∧
    (freshAnswer smallPackage ⟨"/"⟩ .unused (.resolve "s::g::a")).toOption = none := by
  simp only [freshAnswer_of_targets targets_smallPackage]
  exact ⟨.child .root (by decide +kernel), by decide +kernel, by decide +kernel, by decide +kernel⟩

end Resolver

end TraitMock
