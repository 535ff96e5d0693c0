import TraitMock.Generation.Run
import TraitMock.Proofs.Naming.Gathering
import TraitMock.Proofs.Naming.Reading

namespace TraitMock.Generation

open Modules (mockScope)

/-- The imports that generated code uses. -/
def ownImports (s : SharedSettings) : List Import := [runtimeImport s.runtimeCrate, testerImport s, arcImport]

/-- The names that generated code finds where it expects them: no import of a signature binds the name of one of its
    own imports to something else. -/
def KeepsOwn (s : SharedSettings) (imports : List Import) : Prop :=
  ∀ own ∈ ownImports s, ∀ i ∈ imports, i.name = own.name → i.path = own.path

instance (s : SharedSettings) : DecidablePred (KeepsOwn s) := fun imports =>
  inferInstanceAs (Decidable (∀ own ∈ ownImports s, ∀ i ∈ imports, i.name = own.name → i.path = own.path))

/-- None of the names is bound. -/
def Avoids (names : List String) (imports : List Import) : Prop := ∀ i ∈ imports, i.name ∉ names

instance (names : List String) : DecidablePred (Avoids names) := fun imports =>
  inferInstanceAs (Decidable (∀ i ∈ imports, i.name ∉ names))

theorem mem_foldl_insert {own : List Import} {types : ImportSet} {i : Import} :
    i ∈ (own.foldl ImportSet.insert types).toList ↔ i ∈ types.toList ∨ i ∈ own := by
  induction own generalizing types with
  | nil => simp
  | cons first rest ih =>
    rw [List.foldl_cons, ih, ImportSet.mem_insert, List.mem_cons, or_assoc, or_left_comm]

private theorem clash?_eq_none_iff {types : ImportSet} {own : Import} :
    clash? types own = none ↔ ∀ i ∈ types.toList, i.name = own.name → i.path = own.path := by
  simp [clash?]

private theorem firstClash?_eq_none_iff {types : ImportSet} {own : List Import} :
    firstClash? types own = none ↔ ∀ o ∈ own, ∀ i ∈ types.toList, i.name = o.name → i.path = o.path := by
  induction own with
  | nil => simp [firstClash?]
  | cons first rest ih =>
    rw [List.forall_mem_cons, ← clash?_eq_none_iff, ← ih, firstClash?]
    cases clash? types first with
    | none => simp
    | some i => simp

/-- There are imports for a generated file exactly when no signature takes a name away from the generated code. -/
theorem allImports_eq_ok_iff {types imports : ImportSet} {s : SharedSettings} :
    allImports types s.runtimeCrate (testerImport s) = .ok imports ↔
      KeepsOwn s types.toList ∧ imports = (ownImports s).foldl ImportSet.insert types := by
  have hclash := @firstClash?_eq_none_iff types (ownImports s)
  unfold allImports
  dsimp only
  cases hfirst : firstClash? types (ownImports s) with
  | none =>
    have hkeeps : KeepsOwn s types.toList := hclash.mp hfirst
    unfold ownImports at hfirst ⊢
    rw [hfirst]
    simp [hkeeps, eq_comm]
  | some found =>
    have hnot : ¬KeepsOwn s types.toList := fun hkeeps => by simp [hclash.mpr hkeeps] at hfirst
    unfold ownImports at hfirst
    rw [hfirst]
    simp [hnot]

/-- A mock is written exactly when the imports of its signatures leave its name and those of generated code alone. -/
theorem mockSource_eq_ok_iff {i : Interface} {mockName text : String} {s : SharedSettings} :
    mockSource i mockName s = .ok text ↔
      (∀ x ∈ i.imports.toList, x.name ≠ mockName) ∧ KeepsOwn s i.imports.toList ∧
        text = header ++ "\n\n" ++ importBlock ((ownImports s).foldl ImportSet.insert i.imports) ++
          Code.text (MockNames.code ⟨mockName, (testerImport s).name⟩ i s.onHelpers) := by
  unfold mockSource
  cases hfind : i.imports.toList.find? (·.name = mockName) with
  | some x =>
    have hname : x.name = mockName := by simpa using List.find?_some hfind
    have hnot : ¬∀ x ∈ i.imports.toList, x.name ≠ mockName :=
      fun h => h x (List.mem_of_find?_eq_some hfind) hname
    simp [hnot]
  | none =>
    have hnames : ∀ x ∈ i.imports.toList, x.name ≠ mockName := fun x hx => by
      simpa using List.find?_eq_none.mp hfind x hx
    cases hall : allImports i.imports s.runtimeCrate (testerImport s) with
    | error e =>
      have hnot : ¬KeepsOwn s i.imports.toList := fun hkeeps => by
        rw [allImports_eq_ok_iff.mpr ⟨hkeeps, rfl⟩] at hall
        cases hall
      simp [hnot, bind, Except.bind]
    | ok imports =>
      obtain ⟨hkeeps, rfl⟩ := allImports_eq_ok_iff.mp hall
      simp only [bind, Except.bind, pure, Except.pure, Except.ok.injEq]
      exact ⟨fun h => ⟨hnames, hkeeps, h.symm⟩, fun h => h.2.2.symm⟩

section

variable {s : SharedSettings} {types imports : List Import}

/-- Imports bind each name once when those of signatures do, and the own ones do, and the two name what they share
    alike. -/
theorem bindsOnce_iff (hkeeps : KeepsOwn s types) (hmem : ∀ i, i ∈ imports ↔ i ∈ types ∨ i ∈ ownImports s) :
    BindsOnce imports ↔ BindsOnce types ∧ BindsOnce (ownImports s) ∧
      ∀ i ∈ types, ∀ own ∈ ownImports s, i.name = own.name → i.newName = own.newName := by
  constructor
  · intro honce
    refine ⟨fun i hi j hj => ?_, fun i hi j hj => ?_, fun i hi own hown hname => ?_⟩
    · exact honce i ((hmem i).mpr (.inl hi)) j ((hmem j).mpr (.inl hj))
    · exact honce i ((hmem i).mpr (.inr hi)) j ((hmem j).mpr (.inr hj))
    · rw [honce i ((hmem i).mpr (.inl hi)) own ((hmem own).mpr (.inr hown)) hname]
  · rintro ⟨htypes, hown, hshared⟩
    have hcross : ∀ i ∈ types, ∀ own ∈ ownImports s, i.name = own.name → i = own := by
      intro i hi own ho hname
      have hpath := hkeeps own ho i hi hname
      have hnew := hshared i hi own ho hname
      cases i
      cases own
      simp_all
    intro i hi j hj hname
    rcases (hmem i).mp hi with hi | hi
    · rcases (hmem j).mp hj with hj | hj
      · exact htypes i hi j hj hname
      · exact hcross i hi j hj hname
    · rcases (hmem j).mp hj with hj | hj
      · exact (hcross j hj i hi hname.symm).symm
      · exact hown i hi j hj hname

private theorem avoids_iff (hmem : ∀ i, i ∈ imports ↔ i ∈ types ∨ i ∈ ownImports s) (names : List String) :
    Avoids names imports ↔ Avoids names types ∧ Avoids names (ownImports s) := by
  simp only [Avoids, hmem, or_imp, forall_and]

/-- In the file of a mock, the names of the own imports stand for what generated code expects. -/
theorem bound?_own (hkeeps : KeepsOwn s types) (hmem : ∀ i, i ∈ imports ↔ i ∈ types ∨ i ∈ ownImports s)
    (honce : BindsOnce (ownImports s)) {own : Import} (hown : own ∈ ownImports s)
    (externs : String → Option CrateId) (dst : Package) (child : String) :
    (mockScope dst child imports).bound? externs own.name =
      (mockScope dst child imports).routed? externs own.path := by
  cases hfind : imports.find? (·.name = own.name) with
  | none =>
    have hnot := List.find?_eq_none.mp hfind own ((hmem own).mpr (.inr hown))
    simp at hnot
  | some i =>
    have hname : i.name = own.name := by simpa using List.find?_some hfind
    have hpath : i.path = own.path := by
      rcases (hmem i).mp (List.mem_of_find?_eq_some hfind) with hi | hi
      · exact hkeeps own hown i hi hname
      · rw [honce i hi own hown hname]
    rw [Modules.bound?_mockScope hfind, hpath]

end

/-- The imports of a mock that is written are those of its signatures and its own. The names of its own imports stand
    for what generated code expects. Each name is bound once exactly when the signatures bind each name once, and so
    do the own imports, and other names that generated code uses are free exactly when they are so in both. -/
theorem imports_of_mock {i : Interface} {mockName text : String} {s : SharedSettings}
    (h : mockSource i mockName s = .ok text) :
    ∃ imports, text = header ++ "\n\n" ++ importBlock imports ++
        Code.text (MockNames.code ⟨mockName, (testerImport s).name⟩ i s.onHelpers) ∧
      (∀ x, x ∈ imports.toList ↔ x ∈ i.imports.toList ∨ x ∈ ownImports s) ∧
      (∀ x ∈ imports.toList, x.name = mockName → x ∈ ownImports s) ∧
      (BindsOnce (ownImports s) → ∀ own ∈ ownImports s, ∀ externs dst child,
        (mockScope dst child imports.toList).bound? externs own.name =
          (mockScope dst child imports.toList).routed? externs own.path) ∧
      (BindsOnce imports.toList ↔ BindsOnce i.imports.toList ∧ BindsOnce (ownImports s) ∧
        ∀ x ∈ i.imports.toList, ∀ own ∈ ownImports s, x.name = own.name → x.newName = own.newName) ∧
      ∀ names, Avoids names imports.toList ↔ Avoids names i.imports.toList ∧ Avoids names (ownImports s) := by
  obtain ⟨hnames, hkeeps, htext⟩ := mockSource_eq_ok_iff.mp h
  have hmem : ∀ x, x ∈ ((ownImports s).foldl ImportSet.insert i.imports).toList ↔
      x ∈ i.imports.toList ∨ x ∈ ownImports s := fun x => mem_foldl_insert
  refine ⟨_, htext, hmem, fun x hx hname => ?_, fun honce own hown externs dst child => ?_, ?_, ?_⟩
  · rcases (hmem x).mp hx with hx | hx
    · exact absurd hname (hnames x hx)
    · exact hx
  · exact bound?_own hkeeps hmem honce hown externs dst child
  · exact bindsOnce_iff hkeeps hmem
  · exact avoids_iff hmem

section Shelf

def shelfFile (name text : String) : Files.Place × Files.Entry :=
  (["shelf", "src", name], .file (Text.encodeUtf8 text))

/-- A package with a trait that demands another one, where both traits use a type `Item`, but not the same. -/
def shelfFiles : Files.Tree :=
  ⟨[(["shelf"], .directory), (["shelf", "src"], .directory),
    shelfFile "lib.rs" "pub mod a;\npub mod b;\npub mod x;\npub mod y;\n",
    shelfFile "x.rs" "pub struct Item;\npub struct Vec;\n", shelfFile "y.rs" "pub struct Item;\n",
    shelfFile "a.rs" ("use crate::\x7bb::Base, x::\x7bItem, Vec\x7d\x7d;\n" ++
      "pub trait Store: Base \x7b fn get(&self, i: Item, v: Vec); \x7d\n"),
    shelfFile "b.rs" "use crate::y::Item;\npub trait Base \x7b fn put(&self, i: Item); \x7d\n"]⟩

def shelfModule (modulePath : List String) (file : String) : Package :=
  ⟨"shelf", ⟨"/shelf"⟩, ⟨"/shelf/src/lib.rs"⟩, modulePath, ⟨file⟩⟩

def shelfResolver : Resolver where
  cwd := ⟨"/shelf"⟩
  known? := some [⟨"shelf", "shelf", .lib, ⟨"/shelf"⟩, ⟨"/shelf/src/lib.rs"⟩⟩]

/-- A trait of the package, as it is mocked in the root of the package. -/
def shelfTrait (src : Package) (name : String) : Except GenerationError Interface :=
  ((Interface.ofTrait shelfFiles src (shelfModule [] "/shelf/src/lib.rs") false name).run.run shelfResolver).1

theorem exists_ok_of_map_eq {ε α β : Type} {x : Except ε α} {f : α → β} {b : β}
    (h : x.toOption.map f = some b) : ∃ a, x = .ok a ∧ f a = b := by
  cases x with
  | error e => cases h
  | ok a => exact ⟨a, rfl, Option.some.inj h⟩

private theorem exists_base : ∃ i, shelfTrait (shelfModule ["b"] "/shelf/src/b.rs") "Base" = .ok i ∧
    i.imports = ⟨[⟨"crate::b", none⟩, ⟨"crate::y::Item", none⟩]⟩ :=
  exists_ok_of_map_eq (by decide +kernel)

private theorem exists_store : ∃ i, shelfTrait (shelfModule ["a"] "/shelf/src/a.rs") "Store" = .ok i ∧
    i.imports = ⟨[⟨"crate::a", none⟩, ⟨"crate::b", none⟩, ⟨"crate::x::Item", none⟩, ⟨"crate::x::Vec", none⟩,
      ⟨"crate::y::Item", none⟩]⟩ :=
  exists_ok_of_map_eq (by decide +kernel)

/-- The mock of the trait that demands no other one: its imports bind each name once, and leave those alone that
    bodies use without a path. -/
theorem imports_of_mockBase :
    ∃ i text imports, shelfTrait (shelfModule ["b"] "/shelf/src/b.rs") "Base" = .ok i ∧
      mockSource i "MockBase" {} = .ok text ∧ text = header ++ "\n\n" ++ importBlock imports ++
        Code.text (MockNames.code ⟨"MockBase", "tester"⟩ i false) ∧
      BindsOnce imports.toList ∧ Avoids ["Vec", "Some", "None", "MockBase"] imports.toList := by
  obtain ⟨i, htrait, himports⟩ := exists_base
  have hsource := mockSource_eq_ok_iff.mpr
    (⟨by rw [himports]; decide +kernel, by rw [himports]; decide +kernel, rfl⟩ :
      (∀ x ∈ i.imports.toList, x.name ≠ "MockBase") ∧ KeepsOwn {} i.imports.toList ∧ _ = _)
  obtain ⟨imports, htext, _, _, _, honce, havoids⟩ := imports_of_mock hsource
  refine ⟨i, _, imports, htrait, hsource, htext, honce.mpr ?_, (havoids _).mpr ?_⟩
  · rw [himports]
    decide +kernel
  · rw [himports]
    decide +kernel

/-- The mock of the other trait is written although two of its imports bind `Item` to different types, and one of
    them takes `Vec` away from the bodies. -/
theorem imports_of_mockStore :
    ∃ i text imports, shelfTrait (shelfModule ["a"] "/shelf/src/a.rs") "Store" = .ok i ∧
      mockSource i "MockStore" {} = .ok text ∧ text = header ++ "\n\n" ++ importBlock imports ++
        Code.text (MockNames.code ⟨"MockStore", "tester"⟩ i false) ∧
      ⟨"crate::x::Item", none⟩ ∈ imports.toList ∧ ⟨"crate::y::Item", none⟩ ∈ imports.toList ∧
      ⟨"crate::x::Vec", none⟩ ∈ imports.toList ∧ ¬BindsOnce imports.toList := by
  obtain ⟨i, htrait, himports⟩ := exists_store
  have hsource := mockSource_eq_ok_iff.mpr
    (⟨by rw [himports]; decide +kernel, by rw [himports]; decide +kernel, rfl⟩ :
      (∀ x ∈ i.imports.toList, x.name ≠ "MockStore") ∧ KeepsOwn {} i.imports.toList ∧ _ = _)
  refine ⟨i, _, (ownImports {}).foldl ImportSet.insert i.imports, htrait, hsource, rfl, ?_, ?_, ?_, ?_⟩
  all_goals
    rw [himports]
    decide +kernel

end Shelf

end TraitMock.Generation
