import Mathlib.Data.List.Basic
import TraitMock.Modules.Resolver
import TraitMock.Proofs.Files.Following

namespace TraitMock.Modules

open Files (Place Tree)
open TraitMock.Path (IsEntryName ofNames)

/-- A file declares a module, and the module has a file. -/
def Declares (files : Tree) (file : Path) (name : String) (child : Path) : Prop :=
  ∃ source d, Source.read files file = .ok source ∧
    (source.declarations files).find? (fun d => d.name = name) = some d ∧ d.file? = some child ∧
    files.isFile child = true

/-- The declarations of a crate lead by names from its root to a file. -/
inductive Reaches (files : Tree) (root : Path) : List String → Path → Prop
  | root : Reaches files root [] root
  | child {names : List String} {file : Path} {name : String} {child : Path} :
      Reaches files root names file → Declares files file name child → Reaches files root (names ++ [name]) child

/-- A file lies where a module of another file is looked for by its name: in a file of that name, if files of that name
    do not stand for their directory, or in the directory of that name. -/
def LiesBelow (files : Tree) (file : Path) (name : String) (child : Path) : Prop :=
  files.locate child = files.locate ((childDirectory file).join (name ++ ".rs")) ∧ ownsDirectory child = false ∨
    files.locate child = files.locate (((childDirectory file).join name).join "mod.rs")

/-- The declarations of a crate lead by names from its root to a file, and the modules on the way all lie where their
    names say, from the directory of the root on. -/
inductive InPlace (files : Tree) (root : Path) : List String → Path → Prop
  | root : InPlace files root [] root
  | child {names : List String} {file : Path} {name : String} {child : Path} :
      ownsDirectory root = true → InPlace files root names file → Declares files file name child →
        LiesBelow files file name child → InPlace files root (names ++ [name]) child

/-- Whether a file of the given name stands for the directory that it lies in. -/
def isOwnerName (last : String) : Bool := ["lib.rs", "main.rs", "mod.rs"].contains last

/-- The place of a module whose file lies below a source directory as its module path says. -/
inductive PlacedAt (source : Place) : List String → Place → Prop
  | owner {names : List String} {last : String} :
      isOwnerName last = true → PlacedAt source names (source ++ names ++ [last])
  | plain {names : List String} {name : String} :
      isOwnerName (name ++ ".rs") = false →
        PlacedAt source (names ++ [name]) (source ++ names ++ [name ++ ".rs"])

section Descent

variable {files : Tree} {root file child : Path} {names : List String} {name spec : String}

private theorem declares_iff : Declares files file name child ↔
    ((Source.read files file).toOption.bind fun source =>
      (source.declarations files).find? fun d => d.name = name).bind Declaration.file? = some child ∧
      files.isFile child = true := by
  constructor
  · rintro ⟨source, d, hread, hfind, hfile, hchild⟩
    rw [hread]
    exact ⟨by simp only [Except.toOption, Option.bind_some, hfind, hfile], hchild⟩
  · rintro ⟨hfile, hchild⟩
    obtain ⟨d, hd, hfile⟩ := Option.bind_eq_some_iff.mp hfile
    obtain ⟨source, hsource, hfind⟩ := Option.bind_eq_some_iff.mp hd
    cases hread : Source.read files file with
    | error e =>
      rw [hread] at hsource
      cases hsource
    | ok source' =>
      rw [hread] at hsource
      obtain rfl := Option.some.inj hsource
      exact ⟨source', d, hread, hfind, hfile, hchild⟩

instance : Decidable (Declares files file name child) := decidable_of_iff _ declares_iff.symm

instance : Decidable (LiesBelow files file name child) := inferInstanceAs (Decidable (_ ∨ _))

theorem InPlace.reaches (h : InPlace files root names file) : Reaches files root names file := by
  induction h with
  | root => exact .root
  | child _ _ hdeclares _ ih => exact ih.child hdeclares

theorem Reaches.eq_root (h : Reaches files root [] file) : file = root := by
  generalize hnames : ([] : List String) = names at h
  cases h with
  | root => rfl
  | child _ _ => simp at hnames

theorem InPlace.root_owns (h : InPlace files root names file) (hnames : names ≠ []) :
    ownsDirectory root = true := by
  cases h with
  | root => exact absurd rfl hnames
  | child hroot _ _ _ => exact hroot

private theorem Declares.childFile_eq (h : Declares files file name child) :
    Resolver.childFile files file name = .ok (some child) := by
  obtain ⟨source, d, hread, hfind, hfile, hchild⟩ := h
  rw [Resolver.childFile, hread]
  simp only [bind, Except.bind, hfind, Option.bind, hfile, Option.getD_some, hchild, if_true]
  rfl

theorem Declares.isFile (h : Declares files file name child) : files.isFile child = true := by
  obtain ⟨_, _, _, _, _, hchild⟩ := h
  exact hchild

private theorem descend_append (front back : List String) :
    Resolver.descend files spec file (front ++ back) =
      Resolver.descend files spec file front >>= fun mid => Resolver.descend files spec mid back := by
  induction front generalizing file with
  | nil => rfl
  | cons name rest ih =>
    rw [List.cons_append, Resolver.descend, Resolver.descend]
    rcases Resolver.childFile files file name with e | _ | child
    · rfl
    · rfl
    · exact ih

/-- A module path is followed along the declarations. -/
theorem Reaches.descend_eq (h : Reaches files root names file) (spec : String) :
    Resolver.descend files spec root names = .ok file := by
  induction h with
  | root => rfl
  | child _ hdeclares ih =>
    rw [descend_append, ih]
    simp only [bind, Except.bind, Resolver.descend, hdeclares.childFile_eq]

theorem Reaches.isFile (h : Reaches files root names file) (hroot : files.isFile root = true) :
    files.isFile file = true := by
  cases h with
  | root => exact hroot
  | child _ hdeclares => exact hdeclares.isFile

end Descent

theorem stemOf_rs {name : String} (h : name ≠ "") : Path.stemOf (name ++ ".rs") = name := by
  have hreverse : (name ++ ".rs").toList.reverse = 's' :: 'r' :: '.' :: name.toList.reverse := by simp
  have hne : name.toList.reverse ≠ [] := by simpa using h
  rw [Path.stemOf, hreverse]
  simp [List.dropWhile, hne]

theorem ownsDirectory_eq {file : Path} {last : String} (h : file.fileName? = some last) :
    ownsDirectory file = isOwnerName last := by
  simp only [ownsDirectory, h, isOwnerName]

theorem childDirectory_eq {file up : Path} {last : String} (hlast : file.fileName? = some last)
    (hup : file.parent? = some up) :
    childDirectory file =
      if isOwnerName last then up else up.join (Path.stemOf last) := by
  rw [childDirectory, ownsDirectory_eq hlast, hup, Path.fileStem?, hlast]
  rfl

theorem chars_of_isIdentifier {cs : List Char} (h : isIdentifier cs = true) :
    cs ≠ [] ∧ ∀ c ∈ cs, c = '_' ∨ c = '#' ∨ Text.isLetterOrNumber c = true := by
  unfold isIdentifier at h
  dsimp only at h
  rcases hbody : (['r', '#'].isPrefixOf? cs).getD cs with _ | ⟨first, rest⟩
  · rw [hbody] at h
    cases h
  · rw [hbody] at h
    simp only [Bool.and_eq_true, Bool.or_eq_true, decide_eq_true_eq, List.all_eq_true] at h
    obtain ⟨⟨hfirst, -⟩, hrest⟩ := h
    have hchars : ∀ c ∈ first :: rest, c = '_' ∨ c = '#' ∨ Text.isLetterOrNumber c = true := by
      intro c hc
      rcases List.mem_cons.mp hc with rfl | hc
      · rcases hfirst with hfirst | hfirst
        · exact .inl hfirst
        · exact .inr (.inr (by rw [Text.isLetterOrNumber, hfirst, Bool.true_or]))
      · rcases hrest c hc with hc | hc
        · exact .inl hc
        · exact .inr (.inr hc)
    rcases hmark : ['r', '#'].isPrefixOf? cs with _ | body
    · rw [hmark, Option.getD_none] at hbody
      rw [hbody]
      exact ⟨List.cons_ne_nil first rest, hchars⟩
    · rw [hmark, Option.getD_some] at hbody
      have hcs : ['r', '#'] ++ body = cs := List.isPrefixOf?_eq_some_iff_append_eq.mp hmark
      rw [← hcs, hbody]
      refine ⟨List.cons_ne_nil _ _, fun c hc => ?_⟩
      rcases List.mem_append.mp hc with hc | hc
      · have hmarks : c = 'r' ∨ c = '#' := by simpa using hc
        rcases hmarks with rfl | rfl
        · exact .inr (.inr (by decide))
        · exact .inr (.inl rfl)
      · exact hchars c hc

theorem not_mem_of_isIdentifier {cs : List Char} (h : isIdentifier cs = true) : '/' ∉ cs ∧ '.' ∉ cs := by
  obtain ⟨-, hchars⟩ := chars_of_isIdentifier h
  constructor
  · intro hmem
    exact absurd (hchars '/' hmem) (by decide)
  · intro hmem
    exact absurd (hchars '.' hmem) (by decide)

theorem isEntryName_of_isIdentifier {name : String} (h : isIdentifier name.toList = true) : IsEntryName name := by
  obtain ⟨hslash, hdot⟩ := not_mem_of_isIdentifier h
  refine ⟨hslash, ?_, ?_⟩
  · have hne : name ≠ "" := fun heq => (chars_of_isIdentifier h).1 (by rw [heq]; rfl)
    have hne' : name ≠ "." := fun heq => hdot (by rw [heq]; exact List.mem_cons_self)
    simp [Path.isIdle, hne, hne']
  · exact fun heq => hdot (by rw [heq]; exact List.mem_cons_self)

/-- So is the name of the file of a module. -/
theorem isEntryName_rs {name : String} (h : isIdentifier name.toList = true) : IsEntryName (name ++ ".rs") := by
  obtain ⟨hslash, -⟩ := not_mem_of_isIdentifier h
  have hlast : ∀ s : String, s.toList.getLast? ≠ some 's' → name ++ ".rs" ≠ s := by
    rintro s hs rfl
    exact hs (by simp)
  refine ⟨?_, ?_, hlast ".." (by decide)⟩
  · simpa [Path.IsSlot] using hslash
  · simp [Path.isIdle, hlast "" (by decide), hlast "." (by decide)]
section Names

variable {source place : Place} {names : List String}

/-- The module path is read off the place of a file. -/
theorem PlacedAt.modulePathOf_eq (h : PlacedAt source names place) (hplace : ∀ name ∈ place, IsEntryName name)
    (hnames : ∀ name ∈ names, name ≠ "") : Resolver.modulePathOf (ofNames source) (ofNames place) = names := by
  have hbelow : ∀ below last, place = source ++ below ++ [last] →
      Resolver.modulePathOf (ofNames source) (ofNames place) =
        if isOwnerName last then below else below ++ [Path.stemOf last] := by
    rintro below last rfl
    have hsource : ∀ name ∈ source, IsEntryName name := fun name hname => hplace name (by simp [hname])
    have hstarts : (ofNames (source ++ below ++ [last])).startsWith (ofNames source) = true := by
      rw [List.append_assoc] at hplace ⊢
      exact Path.startsWith_ofNames hplace
    have hname := Path.fileName?_ofNames hplace
    have hdrop : (((ofNames (source ++ below ++ [last])).steps.drop (ofNames source).steps.length).map
        Path.Step.text) = below ++ [last] := by
      rw [Path.steps_ofNames hplace, Path.steps_ofNames hsource, List.append_assoc, List.map_append]
      simp [Function.comp_def, Path.Step.text]
    rw [Resolver.modulePathOf, if_pos hstarts]
    simp only [hdrop, List.dropLast_concat, ownsDirectory_eq hname, Path.fileStem?, hname, Option.map_some,
      Option.toList_some]
  cases h with
  | owner hlast => rw [hbelow names _ rfl, if_pos hlast]
  | @plain front name hlast =>
    rw [hbelow front _ rfl, if_neg (Bool.eq_false_iff.mp hlast),
      stemOf_rs (hnames name (by simp))]

/-- What lies where the root of a crate may lie has no names. -/
theorem PlacedAt.eq_nil {last : String} (h : PlacedAt source names (source ++ [last]))
    (hlast : isOwnerName last = true) : names = [] := by
  generalize hplace : source ++ [last] = place at h
  cases h with
  | owner _ =>
    rw [List.append_assoc, List.append_cancel_left_eq] at hplace
    have hlength := congrArg List.length hplace
    simpa using hlength
  | @plain front name hplain =>
    rw [List.append_assoc, List.append_cancel_left_eq] at hplace
    obtain ⟨-, rfl⟩ : front = [] ∧ last = name ++ ".rs" := by
      cases front with
      | nil => exact ⟨rfl, List.singleton_inj.mp hplace⟩
      | cons _ _ => simp at hplace
    rw [hlast] at hplain
    cases hplain

/-- What is found by a name below a file lies below the source directory as the module path says. -/
theorem PlacedAt.locate_below {files : Tree} {file : Path} {name : String} {below : Place}
    (h : PlacedAt source names place) (hfile : files.locate file = .ok place)
    (hentry : files.entry? place ≠ some .directory) (hnames : ∀ n ∈ names, isIdentifier n.toList = true)
    (hname : IsEntryName name) (hbelow : files.locate ((childDirectory file).join name) = .ok below) :
    below = source ++ names ++ [name] := by
  cases h with
  | owner howner =>
    obtain ⟨hlast, up, hparent, hup⟩ := Tree.locate_parent hfile hentry
    rw [childDirectory_eq hlast hparent, if_pos howner, Tree.locate_join hname] at hbelow
    obtain ⟨there, hthere, -, hbelow, -⟩ := hbelow
    rw [hbelow, ← Except.ok.inj (hup.symm.trans hthere)]
  | @plain front stem hplain =>
    obtain ⟨hlast, up, hparent, hup⟩ := Tree.locate_parent hfile hentry
    have hstem := isEntryName_of_isIdentifier (hnames stem (by simp))
    rw [childDirectory_eq hlast hparent, if_neg (Bool.eq_false_iff.mp hplain),
      stemOf_rs hstem.ne_empty, Tree.locate_join hname] at hbelow
    obtain ⟨there, hthere, -, hbelow, -⟩ := hbelow
    obtain ⟨there', hthere', -, hdir, -⟩ := (Tree.locate_join hstem).mp hthere
    rw [hbelow, hdir, ← Except.ok.inj (hup.symm.trans hthere'), List.append_assoc source]

/-- Where the modules on the way all lie as their names say, so does the last one. -/
theorem InPlace.placedAt {files : Tree} {root file : Path} {last : String} (h : InPlace files root names file)
    (hroot : files.locate root = .ok (source ++ [last])) (hfile : files.isFile root = true)
    (howner : ownsDirectory root = true) (hnames : ∀ n ∈ names, isIdentifier n.toList = true) :
    ∃ place, files.locate file = .ok place ∧ PlacedAt source names place := by
  induction h with
  | root =>
    obtain ⟨place, hplace, -, hentry⟩ := Tree.isFile_iff.mp hfile
    obtain rfl := Except.ok.inj (hroot.symm.trans hplace)
    obtain ⟨hlast, -⟩ := Tree.locate_parent hroot hentry
    rw [ownsDirectory_eq hlast] at howner
    have howned : PlacedAt source [] (source ++ [] ++ [last]) := .owner howner
    rw [List.append_nil] at howned
    exact ⟨_, hroot, howned⟩
  | @child names file name child _ hplaced hdeclares hbelow ih =>
    have hnames' : ∀ n ∈ names, isIdentifier n.toList = true := fun n hn => hnames n (List.mem_append_left [name] hn)
    have hname : isIdentifier name.toList = true := hnames name (by simp)
    obtain ⟨above, habove, hplacedAt⟩ := ih hnames'
    obtain ⟨above', habove', -, hentry⟩ := Tree.isFile_iff.mp (hplaced.reaches.isFile hfile)
    obtain rfl := Except.ok.inj (habove.symm.trans habove')
    obtain ⟨place, hplace, -, hentry'⟩ := Tree.isFile_iff.mp hdeclares.isFile
    refine ⟨place, hplace, ?_⟩
    rcases hbelow with ⟨hbelow, hplain⟩ | hbelow
    · rw [hplace] at hbelow
      obtain rfl := hplacedAt.locate_below habove hentry hnames' (isEntryName_rs hname) hbelow.symm
      obtain ⟨hlast, -⟩ := Tree.locate_parent hplace hentry'
      exact .plain (by rwa [ownsDirectory_eq hlast] at hplain)
    · rw [hplace] at hbelow
      have hmod : IsEntryName "mod.rs" := ⟨by simp [Path.IsSlot], by decide, by decide⟩
      obtain ⟨there, hthere, -, hjoin, -⟩ := (Tree.locate_join hmod).mp hbelow.symm
      obtain rfl := hplacedAt.locate_below habove hentry hnames' (isEntryName_of_isIdentifier hname) hthere
      rw [hjoin, List.append_assoc source names [name]]
      exact .owner (by decide)

end Names

/-- The names of a module path that is well-formed. -/
theorem isIdentifier_of_parseSpec {spec first : String} {rest : List String} (h : parseSpec spec = .ok (first :: rest)) :
    isIdentifier first.toList = true ∧ ∀ name ∈ rest, isIdentifier name.toList = true := by
  unfold parseSpec at h
  dsimp only at h
  split at h
  · rename_i hsegments
    rw [Except.ok.inj h, areSegments] at hsegments
    simp only [Bool.and_eq_true, List.all_eq_true] at hsegments
    exact ⟨hsegments.1.1.1, fun name hname => (hsegments.2 name hname).1⟩
  · cases h

end TraitMock.Modules
