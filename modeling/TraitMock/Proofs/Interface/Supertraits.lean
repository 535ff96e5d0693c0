import TraitMock.Proofs.Interface.Traversal

namespace TraitMock

open Files (Tree)
open Modules (ModuleItem Scope)

section FirstOfEachName

variable {seen : List String} {ms : List Method}

theorem not_mem_seen_of_mem {m : Method} (h : m ∈ firstOfEachName seen ms) : m.name ∉ seen := by
  induction ms generalizing seen with
  | nil => simp [firstOfEachName] at h
  | cons first rest ih =>
    rw [firstOfEachName] at h
    split at h
    · exact ih h
    · rename_i hfirst
      rcases List.mem_cons.mp h with rfl | h
      · simpa using hfirst
      · exact fun hmem => ih h (List.mem_cons_of_mem _ hmem)

private theorem nodup_firstOfEachName (seen : List String) (ms : List Method) :
    ((firstOfEachName seen ms).map (·.name)).Nodup := by
  induction ms generalizing seen with
  | nil => simp [firstOfEachName]
  | cons first rest ih =>
    rw [firstOfEachName]
    split
    · exact ih seen
    · rw [List.map_cons, List.nodup_cons]
      refine ⟨fun hmem => ?_, ih _⟩
      obtain ⟨m, hm, hname⟩ := List.mem_map.mp hmem
      exact not_mem_seen_of_mem hm (by simp [hname])

private theorem mem_names_firstOfEachName {m : Method} (hm : m ∈ ms) (hseen : m.name ∉ seen) :
    m.name ∈ (firstOfEachName seen ms).map (·.name) := by
  induction ms generalizing seen with
  | nil => exact absurd hm List.not_mem_nil
  | cons first rest ih =>
    rw [firstOfEachName]
    split
    · rename_i hfirst
      rcases List.mem_cons.mp hm with rfl | hm
      · exact absurd (by simpa using hfirst) hseen
      · exact ih hm hseen
    · rw [List.map_cons, List.mem_cons]
      by_cases hname : m.name = first.name
      · exact .inl hname
      · rcases List.mem_cons.mp hm with rfl | hm
        · exact .inl rfl
        · exact .inr (ih hm fun hmem => (List.mem_cons.mp hmem).elim hname hseen)

private theorem find?_of_mem_firstOfEachName {m : Method} (h : m ∈ firstOfEachName seen ms) :
    ms.find? (·.name = m.name) = some m := by
  induction ms generalizing seen with
  | nil => simp [firstOfEachName] at h
  | cons first rest ih =>
    have hnot := not_mem_seen_of_mem h
    rw [firstOfEachName] at h
    split at h
    · rename_i hfirst
      have hname : first.name ≠ m.name := fun heq => hnot (heq ▸ by simpa using hfirst)
      rw [List.find?_cons_of_neg (by simpa using hname)]
      exact ih h
    · rcases List.mem_cons.mp h with rfl | h
      · simp
      · have hname : first.name ≠ m.name := fun heq => not_mem_seen_of_mem h (by simp [heq])
        rw [List.find?_cons_of_neg (by simpa using hname)]
        exact ih h

end FirstOfEachName

/-- An interface has one method for each name of a method of its traits, which is the first one of that name. -/
structure FirstOfEach (i : Interface) : Prop where
  once : (i.methods.map (·.name)).Nodup
  all : ∀ t ∈ i.traits, ∀ m ∈ t.methods, m.name ∈ i.methods.map (·.name)
  first : ∀ m ∈ i.methods, (i.traits.flatMap (·.methods)).find? (·.name = m.name) = some m

theorem firstOfEach (i : Interface) : FirstOfEach i where
  once := nodup_firstOfEachName _ _
  all t ht _ hm := mem_names_firstOfEachName (List.mem_flatMap.mpr ⟨t, ht, hm⟩) List.not_mem_nil
  first _ hm := find?_of_mem_firstOfEachName hm

/-- A trait is implemented as it is declared in a module of the crate of `src` that a walk has looked into, with its
    methods in the order in which they are declared. Each of its bounds demands a trait of the crate, or is passed
    over, and the resolver remembers which. -/
structure IsListed (files : Tree) (src dst : Package) (variadicSlices : Bool) (w : Walk) (r : Resolver)
    (k : TraitKey) (t : TraitImpl) (s : Scope) (d : Syntax.TraitDecl) : Prop where
  place : s.package.file.steps = k.file
  crateRoot : s.package.crateRoot.same src.crateRoot = true
  source : Modules.Source.read files s.package.file = .ok s.source
  loaded : ∃ r₁ r₂, Gives (Scope.load files s.package) r₁ s r₂
  implements : Implements dst variadicSlices w k s d t
  methodNames : t.methods.map (·.name) = (d.members.filterMap Walking.declared?).map (·.name)
  answered : ∀ p ∈ pendingOf s k.name d, ∃ item?, Runs (Walking.demanded files p) w r item? w r ∧
    Walking.DemandedBy src.crateRoot (fun _ => True) p item?

section

variable {files : Tree} {root : Path} {known : Path → Prop} {src dst : Package} {variadicSlices : Bool}
  {w : Walk} {r : Resolver}

theorem Implements.methodNames {k : TraitKey} {s : Scope} {d : Syntax.TraitDecl} {t : TraitImpl}
    (h : Implements dst variadicSlices w k s d t) :
    t.methods.map (·.name) = (d.members.filterMap Walking.declared?).map (·.name) := by
  have hmethods := h.methods
  generalize d.members.filterMap Walking.declared? = decls at hmethods ⊢
  generalize t.methods = methods at hmethods ⊢
  induction hmethods with
  | nil => rfl
  | cons hlowered _ ih =>
    rw [List.map_cons, List.map_cons, ih]
    exact congrArg (· :: _) (hlowered.mirrors Modules.yields_visible_lowerPathText).name

theorem Listed.isListed {k : TraitKey} {t : TraitImpl} (hsound : Sound files src.crateRoot known w r)
    (h : Listed files src.crateRoot known dst variadicSlices w r k t) :
    ∃ s d, IsListed files src dst variadicSlices w r k t s d := by
  obtain ⟨s, d, himpl, hanswered⟩ := h
  obtain ⟨path, hsteps, hlooked⟩ := hsound.looked himpl.scope
  have hplace := hlooked.place
  subst hplace
  refine ⟨s, d, hsteps, hlooked.belongs.crateRoot, hlooked.source, hlooked.loaded, himpl, himpl.methodNames, ?_⟩
  intro p hp
  obtain ⟨item?, hdemanded, hruns⟩ := hanswered p hp
  exact ⟨item?, hruns w r (.refl r), fun item hitem => ⟨(hdemanded.ofCrate item hitem).crateRoot, trivial⟩,
    hdemanded.implied⟩

end

/-- The files that are known before a walk: those of the module that it starts from and of the remembered ones. -/
def sourcesOf (src : Package) (r : Resolver) : List Path := src.file :: r.found.map (·.2.file)

section

variable {files : Tree} {src : Package} {r : Resolver}

theorem canonicalOr_known (q : Path) : KnownAmong files (sourcesOf src r) (files.canonicalOr q) := .inr ⟨q, rfl⟩

theorem belongs_src : Belongs src.crateRoot (KnownAmong files (sourcesOf src r)) src :=
  ⟨Path.same_iff.mpr rfl, .inl List.mem_cons_self⟩

theorem sound_start : Sound files src.crateRoot (KnownAmong files (sourcesOf src r)) {} r := by
  refine ⟨fun x hx => .inl ?_, fun x hx => absurd hx List.not_mem_nil⟩
  exact List.mem_cons_of_mem _ (List.mem_map.mpr ⟨x, hx, rfl⟩)

theorem trail_start : Trail {} := ⟨List.nodup_nil, fun _ hk => absurd hk List.not_mem_nil⟩

theorem length_seen_lt_depthLimit {w : Walk} {r₁ : Resolver} (htrail : Trail w)
    (hsound : Sound files src.crateRoot (KnownAmong files (sourcesOf src r)) w r₁) :
    w.seen.length ≤ Walking.depthLimit files r - 1 := by
  have hlength := length_seen_le htrail hsound
  simpa [sourcesOf, Walking.depthLimit, Nat.add_assoc] using hlength

theorem depthLimit_pos : Walking.depthLimit files r - 1 < Walking.depthLimit files r := by
  unfold Walking.depthLimit
  omega

variable {dst : Package} {variadicSlices : Bool} {name : String} {i : Interface} {r' : Resolver}

/-- An interface is what a walk has met that went deep enough. -/
theorem exists_walk (h : Gives (Interface.ofTrait files src dst variadicSlices name) r i r') :
    ∃ w, Runs (Walking.expand files dst variadicSlices (Walking.depthLimit files r) ⟨src, name⟩) {} r () w r' ∧
      i = ⟨name, w.traits, w.imports⟩ ∧
      Meets files src.crateRoot (KnownAmong files (sourcesOf src r)) dst variadicSlices True
        (fun _ => [ModuleItem.key ⟨src, name⟩]) {} r w r' := by
  obtain ⟨r₀, r₁, hget, hrest⟩ := gives_bind.mp h
  obtain ⟨rfl, rfl⟩ := gives_get.mp hget
  obtain ⟨⟨_, w⟩, r₂, hexpand, hresult⟩ := gives_bind.mp hrest
  dsimp only at hresult
  split at hresult
  · exact absurd hresult not_gives_throw
  · obtain ⟨rfl, rfl⟩ := gives_pure.mp hresult
    have hmeets := Walking.expand_meets canonicalOr_known (fun _ _ => length_seen_lt_depthLimit) _ ⟨src, name⟩ {} r₁ w
      r' belongs_src sound_start trail_start hexpand
    refine ⟨w, hexpand, rfl, hmeets.sound, hmeets.trail, hmeets.extends_, ?_⟩
    obtain ⟨order, traits, hseen, htraits, hlisted, horder⟩ := hmeets.met
    exact ⟨order, traits, hseen, htraits, hlisted, fun _ => horder (Nat.lt_of_lt_of_le depthLimit_pos (Nat.le_refl _))⟩

theorem exists_left_of_mem {α β : Type} {R : α → β → Prop} {as : List α} {bs : List β} (h : List.Forall₂ R as bs)
    {b : β} (hb : b ∈ bs) : ∃ a, R a b := by
  induction h with
  | nil => exact absurd hb List.not_mem_nil
  | cons hab _ ih =>
    rcases List.mem_cons.mp hb with rfl | hb
    · exact ⟨_, hab⟩
    · exact ih hb

/-- Each trait of an interface is listed. -/
theorem exists_isListed (h : Gives (Interface.ofTrait files src dst variadicSlices name) r i r') :
    ∃ w, i = ⟨name, w.traits, w.imports⟩ ∧
      ∀ t ∈ i.traits, ∃ k s d, IsListed files src dst variadicSlices w r' k t s d := by
  obtain ⟨w, _, rfl, hmeets⟩ := exists_walk h
  obtain ⟨order, traits, _, htraits, hlisted, _⟩ := hmeets.met
  obtain rfl : w.traits = traits := htraits
  refine ⟨w, rfl, fun t ht => ?_⟩
  obtain ⟨k, hk⟩ := exists_left_of_mem hlisted ht
  exact ⟨k, hk.isListed hmeets.sound⟩

end

/-- The walk through the traits that a trait demands ends before it is too deep, whatever it comes to. When there is an
    interface, its traits are those that the given one leads to by its bounds, each of them once, in depth-first order;
    each is implemented as it is declared, and of their methods the interface has the first of each name. -/
theorem traits_of_interface (files : Tree) (src dst : Package) (variadicSlices : Bool) (name : String) (r : Resolver) :
    (∀ n ≥ Walking.depthLimit files r,
      outcome ((Walking.expand files dst variadicSlices n ⟨src, name⟩).run {}) r =
        outcome ((Walking.expand files dst variadicSlices (Walking.depthLimit files r) ⟨src, name⟩).run {}) r) ∧
    ∀ i r', Gives (Interface.ofTrait files src dst variadicSlices name) r i r' →
      ∃ w order,
        Runs (Walking.expand files dst variadicSlices (Walking.depthLimit files r) ⟨src, name⟩) {} r () w r' ∧
        i = ⟨name, w.traits, w.imports⟩ ∧
        DepthFirst (w.demands files r') [] [ModuleItem.key ⟨src, name⟩] order ∧
        order.head? = some (ModuleItem.key ⟨src, name⟩) ∧ order.Nodup ∧
        (∀ k, k ∈ order ↔ LeadsTo (w.demands files r') (ModuleItem.key ⟨src, name⟩) k) ∧
        List.Forall₂ (fun k t => ∃ s d, IsListed files src dst variadicSlices w r' k t s d) order i.traits ∧
        FirstOfEach i := by
  refine ⟨fun n hn => ?_, fun i r' h => ?_⟩
  · exact Walking.expand_deep canonicalOr_known (fun _ _ => length_seen_lt_depthLimit) n _ ⟨src, name⟩ {} r belongs_src
      sound_start trail_start (Nat.lt_of_lt_of_le depthLimit_pos hn) depthLimit_pos
  · obtain ⟨w, hexpand, rfl, hmeets⟩ := exists_walk h
    obtain ⟨order, traits, _, htraits, hlisted, horder⟩ := hmeets.met
    have hdepth := horder trivial w r' (.refl w r')
    obtain ⟨hhead, hnodup, hreached⟩ := hdepth.from_root
    obtain rfl : w.traits = traits := htraits
    refine ⟨w, order, hexpand, rfl, hdepth, hhead, hnodup, hreached, ?_, firstOfEach _⟩
    exact hlisted.imp fun k t hl => hl.isListed hmeets.sound

section Atlas

def atlasFile (name text : String) : Files.Place × Files.Entry :=
  (["atlas", "src", name], .file (Text.encodeUtf8 text))

/-- A package with a trait that demands another one by two ways, which demands the first one again. -/
def atlasFiles : Tree :=
  ⟨[(["atlas"], .directory), (["atlas", "src"], .directory),
    atlasFile "lib.rs" "mod base; mod left; mod right;",
    atlasFile "top.rs" ("use crate::left::Left; " ++
      "trait Top: Left + crate::right::Right + Clone \x7b fn top(&self); fn base(&self); \x7d"),
    atlasFile "left.rs" "trait Left: crate::base::Base \x7b fn left(&self); \x7d",
    atlasFile "right.rs" "use super::base::Base; trait Right: Send + Base \x7b fn right(&self); \x7d",
    atlasFile "base.rs" "trait Base: super::top::Top \x7b fn base(&self); fn area(&self); \x7d"]⟩

def atlas (modulePath : List String) (file : String) : Package :=
  ⟨"atlas", ⟨"/atlas"⟩, ⟨"/atlas/src/lib.rs"⟩, modulePath, ⟨file⟩⟩

def atlasTop (dst : Package) : Resolving Interface :=
  Interface.ofTrait atlasFiles (atlas ["top"] "/atlas/src/top.rs") dst false "Top"

def atlasResolver : Resolver where
  cwd := ⟨"/atlas"⟩
  known? := some [⟨"atlas", "atlas", .lib, ⟨"/atlas"⟩, ⟨"/atlas/src/lib.rs"⟩⟩]

private theorem exists_top : ∃ i r', Gives (atlasTop (atlas [] "/atlas/src/lib.rs")) atlasResolver i r' ∧
    (i.traits.map (·.name), i.methods.map (·.name)) =
      (["Top", "Left", "Base", "Right"], ["top", "base", "left", "area", "right"]) :=
  exists_gives (by decide +kernel)

theorem traits_of_top :
    ∃ i r' w order, Gives (atlasTop (atlas [] "/atlas/src/lib.rs")) atlasResolver i r' ∧
      i.traits.map (·.name) = ["Top", "Left", "Base", "Right"] ∧
      i.methods.map (·.name) = ["top", "base", "left", "area", "right"] ∧
      DepthFirst (Walk.demands atlasFiles w r') [] [ModuleItem.key ⟨atlas ["top"] "/atlas/src/top.rs", "Top"⟩] order ∧ order.Nodup ∧
      order.length = 4 ∧ FirstOfEach i := by
  obtain ⟨i, r', hgives, hnames⟩ := exists_top
  obtain ⟨htraits, hmethods⟩ := Prod.mk.inj hnames
  obtain ⟨_, htraversal⟩ := traits_of_interface atlasFiles
    (atlas ["top"] "/atlas/src/top.rs") (atlas [] "/atlas/src/lib.rs") false "Top" atlasResolver
  obtain ⟨w, order, _, _, hdepth, _, hnodup, _, hlisted, hfirst⟩ := htraversal i r' hgives
  refine ⟨i, r', w, order, hgives, htraits, hmethods, hdepth, hnodup, ?_, hfirst⟩
  have hlength : i.traits.length = 4 := by
    rw [← List.length_map (·.name), htraits]
    rfl
  rw [hlisted.length_eq, hlength]

end Atlas

end TraitMock
