import TraitMock.Proofs.Naming.Preservation

namespace TraitMock.Modules

open Signature
open Syntax (PathText TypeExpr)

/-- A path is visible in the file of a mock with some imports. The path was written for the signature of a module:
    what the module binds by nothing is another crate there, and stays so. -/
inductive Visible (s : Scope) (dst : Package) (imports : List Import) : String → Prop where
  | self : Visible s dst imports "Self"
  | prelude {name : String} (hprelude : isPrelude name = true) : Visible s dst imports name
  | ownCrate {path : String} {rest : List String} (hsegs : Text.segments path = "crate" :: rest) :
    Visible s dst imports path
  | otherCrate {path : String} {rest : List String} (hother : s.package.sameCrate dst = false)
    (hsegs : Text.segments path = s.package.crateName :: rest) : Visible s dst imports path
  | imported {path : String} {rest : List String} {i : Import} (himport : i ∈ imports)
    (hsegs : Text.segments path = i.name :: rest) : Visible s dst imports path
  | foreign {path first : String} {rest : List String} (hsegs : Text.segments path = first :: rest)
    (hrest : rest ≠ []) (hfirst : relativeNames.contains first = false) (hbinds : s.binds first = false)
    (hchild : s.children.contains first = false) : Visible s dst imports path

theorem Visible.mono {s : Scope} {dst : Package} {imports imports' : List Import} {path : String}
    (h : Visible s dst imports path) (hsub : ∀ i ∈ imports, i ∈ imports') : Visible s dst imports' path := by
  cases h with
  | self => exact .self
  | prelude hprelude => exact .prelude hprelude
  | ownCrate hsegs => exact .ownCrate hsegs
  | otherCrate hother hsegs => exact .otherCrate hother hsegs
  | imported himport hsegs => exact .imported (hsub _ himport) hsegs
  | foreign hsegs hrest hfirst hbinds hchild => exact .foreign hsegs hrest hfirst hbinds hchild

/-- The names around a module are those of modules and crates, and the modules all of whose items it imports are of
    its crate. -/
structure Tidy (s : Scope) : Prop where
  crateName : Text.IsName s.package.crateName
  modulePath : ∀ seg ∈ s.package.modulePath, Text.IsName seg
  imported : ∀ name i, s.importNamed name = some i → ∀ seg ∈ Text.segments i.path, Text.IsName seg
  globs : ∀ g ∈ s.globs, g.1.crate = s.package.crate ∧ ∀ seg ∈ g.1.modulePath, Text.IsName seg

/-- A path that leads to an item by names. -/
def ByNames (s : Scope) (p : PathText) : Prop :=
  if p.isName then IsProper p.text else LeadsToItem s (Text.relativePath (Text.compact p.text))

/-- What lowering makes of a path is visible. -/
def SeenAs (s : Scope) (dst : Package) (imports : List Import) (p : PathText) (text : String) : Prop :=
  Tidy s → ByNames s p → Visible s dst imports text

section

variable {s : Scope} {dst : Package} {ok : List Import → Prop}

/-- A path from the root of the crate of a module is visible. -/
theorem visible_rootFrom {p : Package} (hcrate : p.crate = s.package.crate) (hname : Text.IsName s.package.crateName)
    {segs : List String} (hne : segs ≠ []) (imports : List Import) :
    Visible s dst imports (Text.joinPath (p.rootFrom dst :: segs)) := by
  have hsame : p.sameCrate dst = s.package.sameCrate dst := sameCrate_of_crate_eq hcrate
  rw [Text.joinPath_cons hne, Package.rootFrom, hsame]
  cases hother : s.package.sameCrate dst with
  | true =>
    rw [if_pos rfl]
    exact .ownCrate (Text.segments_append (by decide) _)
  | false =>
    have hcrateName : p.crateName = s.package.crateName := congrArg CrateId.name hcrate
    rw [if_neg (by simp), hcrateName]
    exact .otherCrate hother (Text.segments_append hname _)

private theorem yields_visible_itemPath {item : ModuleItem}
    (hmodule : item.module = s.package ∨ ∃ g ∈ s.globs, item.module = g.1) :
    Yields ok (itemPath dst item) fun imports text =>
      Tidy s → Text.IsName item.name → Visible s dst imports text := by
  have hof : Tidy s → item.module.crate = s.package.crate ∧ ∀ seg ∈ item.module.modulePath, Text.IsName seg := by
    intro htidy
    rcases hmodule with hm | ⟨g, hg, hm⟩
    · rw [hm]
      exact ⟨rfl, htidy.modulePath⟩
    · rw [hm]
      exact htidy.globs g hg
  unfold itemPath
  dsimp only
  split
  · refine yields_of_need fun imports _ himport _ hname => .imported himport (?_ : _ = _ :: [])
    rw [Text.segments_of_isName hname]
    exact congrArg (· :: []) (Text.lastSegment_joinPath ["super"] hname).symm
  · split
    · rename_i hroot
      have hempty : item.module.modulePath = [] := by simpa [Package.isCrateRoot] using hroot
      refine yields_pure fun imports _ htidy _ => ?_
      have htext : Text.joinPath [item.module.pathFrom dst, item.name] =
          Text.joinPath (item.module.rootFrom dst :: [item.name]) := by
        rw [Package.pathFrom, hempty]
        rfl
      rw [htext]
      exact visible_rootFrom (hof htidy).1 htidy.crateName (by simp) imports
    · rename_i hroot
      obtain ⟨front, ident, hmodulePath⟩ : ∃ front ident, item.module.modulePath = front ++ [ident] := by
        have hne : item.module.modulePath ≠ [] := by simpa [Package.isCrateRoot] using hroot
        exact ⟨_, _, (List.dropLast_concat_getLast hne).symm⟩
      have hident : item.module.ident = ident := by simp [Package.ident, hmodulePath]
      refine yields_of_need fun imports _ himport htidy hname => .imported himport (?_ : _ = _ :: [item.name])
      have hidentName : Text.IsName ident := (hof htidy).2 ident (by simp [hmodulePath])
      have hbound : Import.name ⟨item.module.pathFrom dst, none⟩ = ident := by
        rw [Package.pathFrom, hmodulePath]
        exact Text.lastSegment_joinPath (item.module.rootFrom dst :: front) hidentName
      rw [hbound, hident]
      exact Text.segments_joinPath_cons hidentName (by simpa using hname)

theorem yields_visible_needCarried {name : String} {i : Import} (himport : s.importNamed name = some i) :
    Yields ok (needCarried s dst i) fun imports _ => Tidy s → IsProper name → ∃ j ∈ imports, j.name = name := by
  have hbound : i.name = name := importNamed_name himport
  unfold needCarried
  cases hcarry : s.carry dst i with
  | error e => exact yields_throw
  | ok j =>
    refine (yields_need j).mono fun imports _ _ hj htidy hname => ⟨j, hj, ?_⟩
    rw [← hbound]
    exact name_of_carry hcarry (hbound ▸ hname) (htidy.imported name i himport)

theorem yields_visible_lowerName (name : String) :
    Yields ok (lowerName s dst name) fun imports text => Tidy s → IsProper name → Visible s dst imports text := by
  unfold lowerName
  split
  · rename_i hself
    exact yields_pure fun _ _ _ _ => hself ▸ .self
  · cases hitem : s.item? name with
    | some item =>
      obtain ⟨rfl, _, _, hmodule⟩ := item?_eq_some (fun _ => none) hitem
      exact (yields_visible_itemPath hmodule).mono fun imports text _ htext htidy hname => htext htidy hname.1
    | none =>
      cases himport : s.importNamed name with
      | some i =>
        refine (yields_visible_needCarried himport).bind fun _ => yields_pure fun imports _ hneeded htidy hname => ?_
        obtain ⟨j, hj, rfl⟩ := hneeded htidy hname
        exact .imported hj (Text.segments_of_isName hname.1)
      | none =>
        dsimp only
        split
        · rename_i hprelude
          exact yields_pure fun _ _ _ _ => .prelude hprelude
        · exact yields_throw

theorem yields_visible_rerouted {path first : String} {rest : List String} (hsegs : Text.segments path = first :: rest)
    (hinside : relativeNames.contains first = true ∨ s.children.contains first = true) :
    Yields ok (lowerPath.rerouted s dst path) fun imports text =>
      Tidy s → LeadsToItem s path → Visible s dst imports text := by
  unfold lowerPath.rerouted
  cases hfrom : s.pathFrom dst path with
  | error e => exact yields_throw
  | ok path' =>
    refine yields_pure fun imports _ htidy hleads => ?_
    rcases Scope.pathFrom_cases hfrom with ⟨segs, hroute, rfl⟩ | ⟨hroute, _⟩
    · obtain ⟨front, last, hpath, hproper⟩ := hleads.last
      obtain ⟨front', rfl⟩ := Scope.route_inside_last hroute hpath hproper.2
      exact visible_rootFrom rfl htidy.crateName (by simp) imports
    · exact absurd hroute (Scope.route_ne_outside hsegs hinside)

private theorem yields_visible_lowerPath (text : String) :
    Yields ok (lowerPath s dst text) fun imports text' =>
      Tidy s → LeadsToItem s (Text.relativePath (Text.compact text)) → Visible s dst imports text' := by
  unfold lowerPath
  dsimp only
  generalize Text.relativePath (Text.compact text) = path
  obtain ⟨first, rest, hsegs⟩ := List.exists_cons_of_ne_nil (Text.segments_ne_nil path)
  have hhead : (Text.segments path).head?.getD "" = first := by rw [hsegs]; rfl
  rw [hhead]
  split
  · exact yields_refuse
  · split
    · rename_i hlength
      obtain rfl : rest = [] := by simpa [hsegs] using hlength
      exact (yields_visible_lowerName path).mono fun imports text' _ htext htidy hleads =>
        htext htidy (hleads.isProper_of_single hsegs)
    · rename_i hlength
      have hrest : rest ≠ [] := by
        rintro rfl
        simp [hsegs] at hlength
      split
      · exact yields_refuse
      · split
        · rename_i hfirst
          exact yields_visible_rerouted hsegs (.inl hfirst)
        · rename_i hfirst
          have hfirst : relativeNames.contains first = false := by simpa using hfirst
          split
          · rename_i i himport
            refine (yields_visible_needCarried himport).bind fun _ =>
              yields_pure fun imports _ hneeded htidy hleads => ?_
            have hname : IsProper first := ⟨hleads.names first (by simp [hsegs]), hfirst⟩
            obtain ⟨j, hj, rfl⟩ := hneeded htidy hname
            exact .imported hj hsegs
          · rename_i himport
            split
            · rename_i hchild
              exact yields_visible_rerouted hsegs (.inr hchild)
            · rename_i hchild
              split
              · exact yields_refuse
              · refine yields_pure fun imports _ _ hleads => ?_
                have hbinds := binds_eq_false (hleads.first _ rest hsegs hrest) himport
                exact .foreign hsegs hrest hfirst hbinds (by simpa using hchild)

/-- Every path that lowering writes is visible. -/
theorem yields_visible_lowerPathText (p : PathText) :
    Yields ok (lowerPathText s dst p) fun imports text => SeenAs s dst imports p text := by
  unfold lowerPathText SeenAs ByNames
  cases p.isName with
  | true => exact yields_visible_lowerName p.text
  | false => exact yields_visible_lowerPath p.text

end

end TraitMock.Modules
