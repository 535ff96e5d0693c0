import TraitMock.Proofs.Naming.Carrying

namespace TraitMock

/-- No name is bound by two imports. -/
def BindsOnce (imports : List Import) : Prop := ∀ i ∈ imports, ∀ j ∈ imports, i.name = j.name → i = j

instance : DecidablePred BindsOnce := fun imports =>
  inferInstanceAs (Decidable (∀ i ∈ imports, ∀ j ∈ imports, i.name = j.name → i = j))

namespace Modules

/-- The imports of a mock are hygienic for what is lowered from a module: each name is bound once, and no name that
    every module knows is bound, nor that of another crate, unless the module binds it itself. -/
structure Hygienic (externs : String → Option CrateId) (s : Scope) (dst : Package) (imports : List Import) :
    Prop where
  once : BindsOnce imports
  preludeKept : ∀ i ∈ imports, isPrelude i.name = true → s.binds i.name = true
  externKept : ∀ i ∈ imports, (externs i.name).isSome = true → s.binds i.name = true
  crateKept : s.package.sameCrate dst = false → ∀ i ∈ imports, i.name ≠ s.package.crateName

theorem hygienic_nil {externs : String → Option CrateId} {s : Scope} {dst : Package} : Hygienic externs s dst [] where
  once _ hi := absurd hi (List.not_mem_nil)
  preludeKept _ hi := absurd hi (List.not_mem_nil)
  externKept _ hi := absurd hi (List.not_mem_nil)
  crateKept _ _ hi := absurd hi (List.not_mem_nil)

/-- The names of a module are those of items, the modules all of whose items it imports are of its crate, and only
    the destination itself is in the file of the destination. -/
structure Regular (externs : String → Option CrateId) (s : Scope) (dst : Package) : Prop where
  modulePath : ∀ seg ∈ s.package.modulePath, IsProper seg
  imported : ∀ name i, s.importNamed name = some i → ∀ seg ∈ Text.segments i.path, Text.IsName seg
  globs : ∀ g ∈ s.globs, g.1.crate = s.package.crate ∧ ∀ seg ∈ g.1.modulePath, IsProper seg
  known : KnownFrom externs s.package dst
  files : ∀ m, m = s.package ∨ (∃ g ∈ s.globs, m = g.1) → m.file.same dst.file = true →
    m.crate = dst.crate ∧ m.modulePath = dst.modulePath

variable {externs : String → Option CrateId} {s : Scope} {dst : Package} {child : String} {imports : List Import}

section Reading

variable {path first : String} {rest : List String}

theorem meaning?_self (h : Text.segments path = ["Self"]) : s.meaning? externs path = some .self := by
  simp [Scope.meaning?, h]

theorem meaning?_relative (h : Text.segments path = first :: rest) (hfirst : relativeNames.contains first = true) :
    s.meaning? externs path = s.routed? externs path := by
  have hself : first ≠ "Self" := fun heq => by simp [heq, relativeNames] at hfirst
  simp only [Scope.meaning?, h, hself, and_false, if_false, hfirst, if_true]

theorem meaning?_bound (h : Text.segments path = first :: rest) (hself : ¬(rest = [] ∧ first = "Self"))
    (hfirst : relativeNames.contains first = false) (hbinds : s.binds first = true) :
    s.meaning? externs path = (s.bound? externs first).map (Meaning.below rest) := by
  simp only [Scope.meaning?, h, if_neg hself, hfirst, hbinds, if_true, Bool.false_eq_true, if_false]

theorem meaning?_prelude (h : Text.segments path = [first]) (hself : first ≠ "Self")
    (hfirst : relativeNames.contains first = false) (hbinds : s.binds first = false)
    (hprelude : isPrelude first = true) : s.meaning? externs path = some (.prelude first) := by
  simp only [Scope.meaning?, h, hself, and_false, hfirst, hbinds, hprelude, Bool.false_eq_true, if_false, if_true]

theorem meaning?_free (h : Text.segments path = first :: rest) (hrest : rest ≠ []) (hbinds : s.binds first = false) :
    s.meaning? externs path = s.routed? externs path := by
  simp only [Scope.meaning?, h, hrest, hbinds, false_and, if_false, Bool.false_eq_true, ite_self]

end Reading

private theorem find?_of_mem (honce : BindsOnce imports) {i : Import} (hi : i ∈ imports) :
    imports.find? (·.name = i.name) = some i := by
  cases hfind : imports.find? (·.name = i.name) with
  | none =>
    have hnot := List.find?_eq_none.mp hfind i hi
    simp at hnot
  | some j =>
    have hname : j.name = i.name := by simpa using List.find?_some hfind
    rw [honce j (List.mem_of_find?_eq_some hfind) i hi hname]

theorem binds_mockScope_of_ne {name : String} (h : ∀ i ∈ imports, i.name ≠ name) :
    (mockScope dst child imports).binds name = false := by
  have hfind : imports.find? (·.name = name) = none := List.find?_eq_none.mpr fun i hi => by simpa using h i hi
  rw [binds_mockScope, hfind]
  rfl

/-- What an item is that a module declares, or has from a module all of whose items it imports. -/
theorem item?_eq_some (externs : String → Option CrateId) {name : String} {item : ModuleItem}
    (h : s.item? name = some item) : item.name = name ∧ s.binds name = true ∧ s.bound? externs name = some item.meaning ∧
      (item.module = s.package ∨ ∃ g ∈ s.globs, item.module = g.1) := by
  unfold Scope.item? at h
  unfold Scope.binds Scope.bound?
  split at h
  · rename_i hdeclares
    obtain rfl := Option.some.inj h
    exact ⟨rfl, by simp [hdeclares], by rw [if_pos hdeclares], .inl rfl⟩
  · rename_i hdeclares
    split at h
    · cases h
    · rename_i himport
      obtain ⟨g, hfind, rfl⟩ := Option.map_eq_some_iff.mp h
      have hmem := List.mem_of_find?_eq_some hfind
      have hcontains : g.2.contains name = true := by simpa using List.find?_some hfind
      have hnone : s.importNamed name = none := by simpa using himport
      refine ⟨rfl, ?_, ?_, .inr ⟨g, hmem, rfl⟩⟩
      · rw [Bool.or_eq_true]
        exact .inr (List.any_eq_true.mpr ⟨g, hmem, hcontains⟩)
      · rw [if_neg hdeclares, hnone]
        simp only [hfind, Option.map_some]

theorem declares_of_item?_eq_none {name : String} (h : s.item? name = none) : s.declares name = false := by
  unfold Scope.item? at h
  split at h
  · cases h
  · rename_i hdeclares
    simpa using hdeclares

theorem binds_eq_false {name : String} (hitem : s.item? name = none) (himport : s.importNamed name = none) :
    s.binds name = false := by
  have hdeclares := declares_of_item?_eq_none hitem
  unfold Scope.item? at hitem
  rw [hdeclares, himport] at hitem
  have hglobs : s.globs.find? (·.2.contains name) = none := by simpa using hitem
  have hany : s.globs.any (·.2.contains name) = false := by
    rw [List.any_eq_false]
    exact fun g hg => by simpa using List.find?_eq_none.mp hglobs g hg
  rw [Scope.binds, hdeclares, himport, hany]
  rfl

theorem bound?_of_import {name : String} {i : Import} (hitem : s.item? name = none)
    (himport : s.importNamed name = some i) :
    s.binds name = true ∧ s.bound? externs name = s.routed? externs i.path := by
  have hdeclares := declares_of_item?_eq_none hitem
  simp [Scope.binds, Scope.bound?, hdeclares, himport]

theorem importNamed_name {name : String} {i : Import} (h : s.importNamed name = some i) : i.name = name := by
  simpa using List.find?_some h

theorem Regular.isName (h : Regular externs s dst) : ∀ seg ∈ s.package.modulePath, Text.IsName seg :=
  fun seg hseg => (h.modulePath seg hseg).1

theorem sameCrate_of_crate_eq {p q : Package} (hcrate : q.crate = p.crate) : q.sameCrate dst = p.sameCrate dst := by
  rw [Bool.eq_iff_iff, Package.sameCrate_iff, Package.sameCrate_iff, hcrate]

/-- What holds of a module holds of those of its crate. -/
theorem KnownFrom.of_crate_eq {p q : Package} (h : KnownFrom externs p dst) (hcrate : q.crate = p.crate) :
    KnownFrom externs q dst := by
  intro hother
  have hname : q.crateName = p.crateName := congrArg CrateId.name hcrate
  rw [sameCrate_of_crate_eq hcrate] at hother
  rw [hname, hcrate]
  exact h hother

/-- A path from the root of a crate, of one name or more, denotes in the file of a mock what it says. -/
theorem meaning?_rootFrom {p : Package} (hknown : KnownFrom externs p dst)
    (hkept : p.sameCrate dst = false → ∀ i ∈ imports, i.name ≠ p.crateName) {segs : List String} (hne : segs ≠ [])
    (hsegs : ∀ seg ∈ segs, Text.IsName seg) :
    (mockScope dst child imports).meaning? externs (Text.joinPath (p.rootFrom dst :: segs)) =
      some (.item p.crate segs) := by
  have hrouted := @routed?_rootFrom externs dst child imports p hknown segs hsegs
  cases hsame : p.sameCrate dst with
  | true =>
    have hroot : p.rootFrom dst = "crate" := by rw [Package.rootFrom, if_pos hsame]
    have hpath : Text.segments (Text.joinPath (p.rootFrom dst :: segs)) = "crate" :: segs := by
      rw [hroot]
      exact Text.segments_joinPath_cons (by decide) hsegs
    rw [meaning?_relative hpath (by decide), hrouted]
  | false =>
    have hroot : p.rootFrom dst = p.crateName := by rw [Package.rootFrom, if_neg (by simp [hsame])]
    have hpath : Text.segments (Text.joinPath (p.rootFrom dst :: segs)) = p.crateName :: segs := by
      rw [hroot]
      exact Text.segments_joinPath_cons (hknown hsame).1.1 hsegs
    rw [meaning?_free hpath hne (binds_mockScope_of_ne (hkept hsame)), hrouted]

/-- A path that begins with an imported name leads on from what is imported. -/
theorem meaning?_imported (honce : BindsOnce imports) {i : Import}
    (hi : i ∈ imports) {path : String} {rest : List String} (hsegs : Text.segments path = i.name :: rest)
    (hself : ¬(rest = [] ∧ i.name = "Self")) (hname : relativeNames.contains i.name = false) :
    (mockScope dst child imports).meaning? externs path =
      ((mockScope dst child imports).routed? externs i.path).map (Meaning.below rest) := by
  have hfind := find?_of_mem honce hi
  have hbinds : (mockScope dst child imports).binds i.name = true := by
    rw [binds_mockScope, hfind]
    rfl
  rw [meaning?_bound hsegs hself hname hbinds, bound?_mockScope hfind]

/-- The parent of the file of a mock is the destination. -/
theorem routed?_super {name : String} (hname : IsProper name) :
    (mockScope dst child imports).routed? externs (Text.joinPath ["super", name]) =
      some (.item dst.crate (dst.modulePath ++ [name])) := by
  have hsegs : Text.segments (Text.joinPath ["super", name]) = ["super", name] :=
    Text.segments_joinPath_cons (by decide) (by simpa using hname.1)
  have hne : name ≠ "super" := hname.ne_of_relative (by decide)
  have hroute : (mockScope dst child imports).route (Text.joinPath ["super", name]) =
      .ok (.inside (dst.modulePath ++ [name])) := by
    simp [Scope.route, hsegs, hne, mockScope]
  rw [Scope.routed?, hroute]
  rfl

end Modules

end TraitMock
