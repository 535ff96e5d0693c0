import TraitMock.Proofs.Naming.Mirroring
import TraitMock.Proofs.Naming.Reading

namespace TraitMock.Modules

open Signature
open Syntax (PathText TypeExpr)

/-- A path of names, of which the last is that of an item, and that does not lead through an item of the module to
    what is associated with it. -/
structure LeadsToItem (s : Scope) (path : String) : Prop where
  names : ∀ seg ∈ Text.segments path, Text.IsName seg
  last : ∃ front last, Text.segments path = front ++ [last] ∧ IsProper last
  first : ∀ first rest, Text.segments path = first :: rest → rest ≠ [] → s.item? first = none

theorem LeadsToItem.isProper_of_single {s : Scope} {path first : String} (h : LeadsToItem s path)
    (hsegs : Text.segments path = [first]) : IsProper path := by
  obtain ⟨front, last, hpath, hproper⟩ := h.last
  have hname : path = last := by
    rw [← Text.joinPath_segments path, hpath]
    obtain rfl : front = [] := by
      cases front <;> simp_all
    rfl
  rwa [hname]

/-- A path that lowering can follow: it does not begin with double colons, and leads to an item. -/
def IsPlain (s : Scope) (p : PathText) : Prop :=
  if p.isName then IsProper p.text
  else Text.relativePath (Text.compact p.text) = Text.compact p.text ∧ LeadsToItem s (Text.compact p.text)

/-- What lowering makes of a path: a path that denotes the same in the file of a mock. -/
def Faithful (externs : String → Option CrateId) (s : Scope) (dst : Package) (child : String)
    (imports : List Import) (path text : String) : Prop :=
  ∀ m, s.meaning? externs path = some m → (mockScope dst child imports).meaning? externs text = some m

section

variable {externs : String → Option CrateId} {s : Scope} {dst : Package} (child : String)

/-- A path into another crate is read in the file of a mock as it was before, unless an import binds the name of the
    crate. -/
theorem yields_outside {path first : String} {rest : List String} (hsegs : Text.segments path = first :: rest)
    (hrest : rest ≠ []) (hfirst : relativeNames.contains first = false) (hbinds : s.binds first = false)
    (hchild : ¬s.children.contains first = true) :
    Yields (Hygienic externs s dst) (pure path : Lowering String) fun imports text =>
      Faithful externs s dst child imports path text := by
  refine yields_pure fun imports hhyg m hm => ?_
  have hroute : s.route path = .ok (.outside path) := by
    rw [Scope.route_of_not_relative hsegs hfirst, if_neg hchild]
  have houtside : outside? externs (Text.segments path) = some m := by
    rw [meaning?_free hsegs hrest hbinds, Scope.routed?, hroute] at hm
    exact hm
  have hextern : (externs first).isSome = true := by
    rw [hsegs, outside?] at houtside
    obtain ⟨crate, hcrate, _⟩ := Option.map_eq_some_iff.mp houtside
    rw [hcrate]
    rfl
  have hfree : (mockScope dst child imports).binds first = false := by
    refine binds_mockScope_of_ne fun i hi hname => ?_
    subst hname
    rw [hhyg.externKept i hi hextern] at hbinds
    cases hbinds
  have hroute' : (mockScope dst child imports).route path = .ok (.outside path) := by
    rw [Scope.route_of_not_relative hsegs hfirst]
    rfl
  rw [meaning?_free hsegs hrest hfree, Scope.routed?, hroute']
  exact houtside

variable (hs : Regular externs s dst)

include hs

/-- An item that is named below the destination is read there as that item. -/
theorem yields_itemPath {item : ModuleItem}
    (hmodule : item.module = s.package ∨ ∃ g ∈ s.globs, item.module = g.1) (hself : item.name ≠ "Self") :
    Yields (Hygienic externs s dst) (itemPath dst item) fun imports text =>
      IsProper item.name → (mockScope dst child imports).meaning? externs text = some item.meaning := by
  obtain ⟨hcrate, hproper⟩ : item.module.crate = s.package.crate ∧ ∀ seg ∈ item.module.modulePath, IsProper seg := by
    rcases hmodule with hm | ⟨g, hg, hm⟩
    · rw [hm]
      exact ⟨rfl, hs.modulePath⟩
    · rw [hm]
      exact hs.globs g hg
  have hknown : KnownFrom externs item.module dst := hs.known.of_crate_eq hcrate
  have hnames : ∀ seg ∈ item.module.modulePath, Text.IsName seg := fun seg hseg => (hproper seg hseg).1
  unfold itemPath
  dsimp only
  split
  · -- an item of the destination itself is imported from there
    rename_i hfile
    obtain ⟨hdst, hpath⟩ := hs.files item.module hmodule hfile
    refine yields_of_need fun imports hhyg himport hname => ?_
    have hbound : Import.name ⟨Text.joinPath ["super", item.name], none⟩ = item.name :=
      Text.lastSegment_joinPath ["super"] hname.1
    have hsegs : Text.segments item.name =
        Import.name ⟨Text.joinPath ["super", item.name], none⟩ :: [] := by
      rw [hbound, Text.segments_of_isName hname.1]
    rw [meaning?_imported hhyg.once himport hsegs (by simp [hbound, hself]) (by rw [hbound]; exact hname.2),
      routed?_super hname]
    simp [Meaning.below, ModuleItem.meaning, hdst, hpath]
  · split
    · -- an item of the root of a crate is written behind the name of the crate
      rename_i hroot
      have hempty : item.module.modulePath = [] := by simpa [Package.isCrateRoot] using hroot
      refine yields_pure fun imports hhyg hname => ?_
      have htext : Text.joinPath [item.module.pathFrom dst, item.name] =
          Text.joinPath (item.module.rootFrom dst :: [item.name]) := by
        rw [Package.pathFrom, hempty]
        rfl
      have hkept : item.module.sameCrate dst = false → ∀ i ∈ imports, i.name ≠ item.module.crateName := by
        intro hother
        rw [show item.module.crateName = s.package.crateName from congrArg CrateId.name hcrate]
        exact hhyg.crateKept (sameCrate_of_crate_eq hcrate ▸ hother)
      rw [htext, meaning?_rootFrom hknown hkept (by simp) (by simpa using hname.1)]
      simp [ModuleItem.meaning, hempty]
    · -- another item is written behind the name of its module, which is imported
      rename_i hroot
      obtain ⟨front, ident, hmodulePath⟩ : ∃ front ident, item.module.modulePath = front ++ [ident] := by
        have hne : item.module.modulePath ≠ [] := by simpa [Package.isCrateRoot] using hroot
        exact ⟨_, _, (List.dropLast_concat_getLast hne).symm⟩
      have hident : item.module.ident = ident := by simp [Package.ident, hmodulePath]
      have hidentProper : IsProper ident := hproper ident (by simp [hmodulePath])
      refine yields_of_need fun imports hhyg himport hname => ?_
      have hbound : Import.name ⟨item.module.pathFrom dst, none⟩ = ident := by
        rw [Package.pathFrom, hmodulePath]
        exact Text.lastSegment_joinPath (item.module.rootFrom dst :: front) hidentProper.1
      have hsegs : Text.segments (Text.joinPath [item.module.ident, item.name]) =
          Import.name ⟨item.module.pathFrom dst, none⟩ :: [item.name] := by
        rw [hbound, hident]
        exact Text.segments_joinPath_cons hidentProper.1 (by simpa using hname.1)
      rw [meaning?_imported hhyg.once himport hsegs (by simp) (by rw [hbound]; exact hidentProper.2),
        Package.pathFrom, routed?_rootFrom hknown hnames]
      rfl

/-- An import that a module has is read in the file of a mock as it was before. -/
theorem yields_needCarried {name : String} {i : Import} (himport : s.importNamed name = some i) :
    Yields (Hygienic externs s dst) (needCarried s dst i) fun imports _ => IsProper name →
      ∃ j ∈ imports, j.name = name ∧
        (mockScope dst child imports).routed? externs j.path = s.routed? externs i.path := by
  have hpath := hs.imported name i himport
  have hbound : i.name = name := importNamed_name himport
  unfold needCarried
  cases hcarry : s.carry dst i with
  | error e => exact yields_throw
  | ok j =>
    refine (yields_need j).mono fun imports _ _ hj hname => ⟨j, hj, ?_, ?_⟩
    · rw [← hbound]
      exact name_of_carry hcarry (hbound ▸ hname) hpath
    · obtain ⟨path', hfrom, rfl⟩ := Scope.carry_cases hcarry
      exact routed?_of_pathFrom hs.known hfrom hpath hs.isName

theorem yields_lowerName (name : String) :
    Yields (Hygienic externs s dst) (lowerName s dst name) fun imports text =>
      IsProper name → Faithful externs s dst child imports name text := by
  unfold lowerName
  split
  · rename_i hself
    refine yields_pure fun imports _ hname m hm => ?_
    have hsegs : Text.segments name = ["Self"] := by rw [Text.segments_of_isName hname.1, hself]
    rwa [meaning?_self hsegs] at hm ⊢
  · rename_i hself
    cases hitem : s.item? name with
    | some item =>
      obtain ⟨rfl, hbinds, hbound, hmodule⟩ := item?_eq_some externs hitem
      refine (yields_itemPath child hs hmodule hself).mono fun imports text _ htext hname m hm => ?_
      have hsegs := Text.segments_of_isName hname.1
      rw [meaning?_bound hsegs (by simp [hself]) hname.2 hbinds, hbound] at hm
      rw [htext hname]
      simpa [Meaning.below, ModuleItem.meaning] using hm
    | none =>
      cases himport : s.importNamed name with
      | some i =>
        refine (yields_needCarried child hs himport).bind fun _ => yields_pure fun imports hhyg hneeded hname m hm => ?_
        obtain ⟨j, hj, rfl, hrouted⟩ := hneeded hname
        obtain ⟨hbinds, hbound⟩ := bound?_of_import hitem himport
        have hsegs := Text.segments_of_isName hname.1
        rw [meaning?_bound hsegs (by simp [hself]) hname.2 hbinds, hbound] at hm
        rwa [meaning?_imported hhyg.once hj hsegs (by simp [hself]) hname.2, hrouted]
      | none =>
        have hbinds := binds_eq_false hitem himport
        dsimp only
        split
        · -- the imports leave a name alone that every module knows
          rename_i hprelude
          refine yields_pure fun imports hhyg hname m hm => ?_
          have hsegs := Text.segments_of_isName hname.1
          have hfree : (mockScope dst child imports).binds name = false := by
            refine binds_mockScope_of_ne fun i hi hbound => ?_
            subst hbound
            rw [hhyg.preludeKept i hi hprelude] at hbinds
            cases hbinds
          rw [meaning?_prelude hsegs hself hname.2 hbinds hprelude] at hm
          rwa [meaning?_prelude hsegs hself hname.2 hfree hprelude]
        · exact yields_throw

/-- A path through the modules of the crate is read in the file of a mock as it was before. -/
theorem yields_rerouted {path first : String} {rest : List String} (hsegs : Text.segments path = first :: rest)
    (hinside : relativeNames.contains first = true ∨ s.children.contains first = true) :
    Yields (Hygienic externs s dst) (lowerPath.rerouted s dst path) fun imports text => LeadsToItem s path →
      ∀ m, s.routed? externs path = some m → (mockScope dst child imports).meaning? externs text = some m := by
  unfold lowerPath.rerouted
  cases hfrom : s.pathFrom dst path with
  | error e => exact yields_throw
  | ok path' =>
    refine yields_pure fun imports hhyg hleads m hm => ?_
    rcases Scope.pathFrom_cases hfrom with ⟨segs, hroute, rfl⟩ | ⟨hroute, _⟩
    · obtain ⟨front, last, hpath, hproper⟩ := hleads.last
      obtain ⟨front', rfl⟩ := Scope.route_inside_last hroute hpath hproper.2
      have hnames := Scope.isName_of_route hroute hleads.names hs.isName
      have hrouted : s.routed? externs path = some (.item s.package.crate (front' ++ [last])) := by
        rw [Scope.routed?, hroute]
        rfl
      rw [Scope.pathInto, meaning?_rootFrom hs.known hhyg.crateKept (by simp) hnames, ← hrouted, hm]
    · exact absurd hroute (Scope.route_ne_outside hsegs hinside)

private theorem yields_lowerPath (text : String) :
    Yields (Hygienic externs s dst) (lowerPath s dst text) fun imports text' =>
      LeadsToItem s (Text.relativePath (Text.compact text)) →
        Faithful externs s dst child imports (Text.relativePath (Text.compact text)) text' := by
  unfold lowerPath
  dsimp only
  generalize Text.relativePath (Text.compact text) = path
  obtain ⟨first, rest, hsegs⟩ := List.exists_cons_of_ne_nil (Text.segments_ne_nil path)
  have hhead : (Text.segments path).head?.getD "" = first := by rw [hsegs]; rfl
  rw [hhead]
  split
  · exact yields_refuse
  · split
    · -- a single name
      rename_i hlength
      obtain rfl : rest = [] := by simpa [hsegs] using hlength
      exact (yields_lowerName child hs path).mono fun imports text' _ htext hleads =>
        htext (hleads.isProper_of_single hsegs)
    · rename_i hlength
      have hrest : rest ≠ [] := by
        rintro rfl
        simp [hsegs] at hlength
      split
      · exact yields_refuse
      · split
        · -- a path that begins with a keyword
          rename_i hfirst
          refine (yields_rerouted child hs hsegs (.inl hfirst)).mono fun imports text' _ htext hleads m hm => ?_
          rw [meaning?_relative hsegs hfirst] at hm
          exact htext hleads m hm
        · rename_i hfirst
          have hfirst : relativeNames.contains first = false := by simpa using hfirst
          split
          · -- a path that begins with an imported name
            rename_i i himport
            refine (yields_needCarried child hs himport).bind fun _ =>
              yields_pure fun imports hhyg hneeded hleads m hm => ?_
            have hname : IsProper first := ⟨hleads.names first (by simp [hsegs]), hfirst⟩
            obtain ⟨j, hj, rfl, hrouted⟩ := hneeded hname
            obtain ⟨hbinds, hbound⟩ := bound?_of_import (hleads.first _ rest hsegs hrest) himport
            rw [meaning?_bound hsegs (by simp [hrest]) hfirst hbinds, hbound] at hm
            rwa [meaning?_imported hhyg.once hj hsegs (by simp [hrest]) hfirst, hrouted]
          · rename_i himport
            split
            · -- a path that begins with a module that is declared
              rename_i hchild
              refine (yields_rerouted child hs hsegs (.inr hchild)).mono fun imports text' _ htext hleads m hm => ?_
              have hbinds := binds_eq_false (hleads.first _ rest hsegs hrest) himport
              rw [meaning?_free hsegs hrest hbinds] at hm
              exact htext hleads m hm
            · rename_i hchild
              split
              · exact yields_refuse
              · by_cases hitem : s.item? first = none
                · have hbinds := binds_eq_false hitem himport
                  exact (yields_outside child hsegs hrest hfirst hbinds hchild).mono fun _ _ _ htext _ => htext
                · exact yields_pure fun _ _ hleads => absurd (hleads.first _ rest hsegs hrest) hitem

/-- Every path that lowering can follow denotes in the file of a mock what it denotes in its module. -/
theorem yields_lowerPathText (p : PathText) :
    Yields (Hygienic externs s dst) (lowerPathText s dst p) fun imports text =>
      IsPlain s p → Faithful externs s dst child imports (if p.isName then p.text else Text.compact p.text) text := by
  unfold lowerPathText IsPlain
  cases p.isName with
  | true => exact yields_lowerName child hs p.text
  | false =>
    simp only [Bool.false_eq_true, if_false]
    refine (yields_lowerPath child hs p.text).mono fun imports text _ htext hplain => ?_
    obtain ⟨hrelative, hleads⟩ := hplain
    rw [hrelative] at htext
    exact htext hleads

end

variable {externs : String → Option CrateId} {s : Scope} {dst : Package} {child : String} {imports : List Import}

/-- A lowered type has the shape of the type that is written in a module, and each of its paths that lowering can
    follow denotes, in the file of a mock with the imports that were gathered, what the path denotes in the module. -/
theorem lowering_preserves_meaning (hs : Regular externs s dst) {t : TypeExpr} {t' : SigType}
    {before after : ImportSet} (hlower : (lowerType s dst t).run.run before = (.ok t', after))
    (hgathered : ∀ i ∈ after.toList, i ∈ imports) (hhyg : Hygienic externs s dst imports) :
    Mirrors (fun p text => IsPlain s p → ∀ m, PathText.meaning? externs s p = some m →
      (mockScope dst child imports).meaning? externs text = some m) t t' := by
  have hmirrored := mirrored_lower (fun p => yields_lowerPathText child hs p) t
  obtain ⟨_, hmeaning⟩ := hmirrored.asType before t' after hlower
  exact hmeaning imports hhyg hgathered

section Shop

def shopCrate : CrateId := ⟨"shop", (⟨"/shop"⟩ : Path).steps⟩

def moduleOfShop (modulePath : List String) (file : String) : Package :=
  ⟨"shop", ⟨"/shop"⟩, ⟨"/shop/src/lib.rs"⟩, modulePath, ⟨file⟩⟩

def externsOfDepot (name : String) : Option CrateId :=
  [("shop", shopCrate), ("std", ⟨"std", []⟩)].lookup name

/-- A module with a type of its own, a module below it, two imports and another module all of whose items it
    imports. -/
def cart : Scope where
  package := moduleOfShop ["cart"] "/shop/src/cart.rs"
  source := ⟨⟨"/shop/src/cart.rs"⟩, []⟩
  bindings := [⟨⟨"crate::stock::Item", some "Good"⟩, false⟩, ⟨⟨"std::rc", none⟩, false⟩]
  typeNames := ["Cart"]
  children := ["line"]
  globs := [(moduleOfShop ["money"] "/shop/src/money.rs", ["Price"])]

/-- A module of another crate. -/
def depot : Package := ⟨"depot", ⟨"/depot"⟩, ⟨"/depot/src/lib.rs"⟩, [], ⟨"/depot/src/lib.rs"⟩⟩

/-- The type `rc::Rc<(Vec<Cart>, Good, Price, line::Line, super::Shop, [Self; 2])>`. -/
def typeOfCart : TypeExpr :=
  .generic ⟨"rc::Rc", false⟩ [.type (.tuple [.generic ⟨"Vec", true⟩ [.type (.named ⟨"Cart", true⟩)],
    .named ⟨"Good", true⟩, .named ⟨"Price", true⟩, .named ⟨"line::Line", false⟩, .named ⟨"super::Shop", false⟩,
    .array (.named ⟨"Self", true⟩) "2"])]

def typeOfDepot : SigType :=
  .path "rc::Rc" [.type (.tuple [.path "Vec" [.type (.named "cart::Cart")], .named "Good", .named "money::Price",
    .named "shop::cart::line::Line", .named "shop::Shop", .array (.named "Self") "2"])]

def importsOfDepot : ImportSet :=
  ⟨[⟨"shop::cart", none⟩, ⟨"shop::money", none⟩, ⟨"shop::stock::Item", some "Good"⟩, ⟨"std::rc", none⟩]⟩

private theorem regular_cart : Regular externsOfDepot cart depot where
  modulePath := by decide
  imported name i himport := by
    have hpaths : ∀ i ∈ (cart.bindings.filter (!·.isGlob)).map (·.item),
        ∀ seg ∈ Text.segments i.path, Text.IsName seg := by decide +kernel
    exact hpaths i (List.mem_of_find?_eq_some himport)
  globs := by decide +kernel
  known _ := by decide +kernel
  files m hm hfile := by
    rcases hm with rfl | ⟨g, hg, rfl⟩
    · revert hfile
      decide +kernel
    · revert g
      decide +kernel

private theorem hygienic_importsOfDepot : Hygienic externsOfDepot cart depot importsOfDepot.toList := by
  constructor <;> decide +kernel

private theorem lower_typeOfCart : (lowerType cart depot typeOfCart).run.run {} = (.ok typeOfDepot, importsOfDepot) := by
  rfl

theorem meaning_of_typeOfCart :
    Mirrors (fun p text => IsPlain cart p → ∀ m, PathText.meaning? externsOfDepot cart p = some m →
      (mockScope depot "mock_cart" importsOfDepot.toList).meaning? externsOfDepot text = some m)
      typeOfCart typeOfDepot :=
  lowering_preserves_meaning regular_cart lower_typeOfCart (fun _ hi => hi) hygienic_importsOfDepot

/-- A module with nothing in it. -/
def limits : Scope where
  package := moduleOfShop ["limits"] "/shop/src/limits.rs"
  source := ⟨⟨"/shop/src/limits.rs"⟩, []⟩
  bindings := []
  typeNames := []
  children := []
  globs := []

private theorem regular_limits : Regular externsOfDepot limits limits.package where
  modulePath := by decide
  imported name i himport := by simp [Scope.importNamed, limits] at himport
  globs g hg := by simp [limits] at hg
  known hother := absurd hother (by decide +kernel)
  files m hm _ := by
    rcases hm with rfl | ⟨g, hg, _⟩
    · exact ⟨rfl, rfl⟩
    · simp [limits] at hg

private theorem lower_length :
    (lowerType limits limits.package (.array (.primitive "u8") "super::MAX")).run.run {} =
      (.ok (.array (.named "u8") "super::MAX"), {}) := by
  rfl

/-- A path in the length of an array is kept as it is written, and denotes another item in the file of a mock. -/
theorem length_of_array_changes_its_meaning :
    (lowerType limits limits.package (.array (.primitive "u8") "super::MAX")).run.run {} =
        (.ok (.array (.named "u8") "super::MAX"), {}) ∧
      Regular externsOfDepot limits limits.package ∧ Hygienic externsOfDepot limits limits.package [] ∧
      limits.meaning? externsOfDepot "super::MAX" = some (.item shopCrate ["MAX"]) ∧
      (mockScope limits.package "mock_limits" []).meaning? externsOfDepot "super::MAX" =
        some (.item shopCrate ["limits", "MAX"]) := by
  refine ⟨lower_length, regular_limits, hygienic_nil, ?_, ?_⟩
  · decide +kernel
  · decide +kernel

end Shop

end TraitMock.Modules
