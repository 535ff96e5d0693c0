import TraitMock.Proofs.Interface.Signatures
import TraitMock.Proofs.Modules.Asking
import TraitMock.Proofs.Naming.Visibility

namespace TraitMock

open Files (Tree)
open Modules (ModuleItem Route Scope)
open Signature (Lowering Yields itemPath)
open Syntax (SuperBound TraitDecl)

variable {α β : Type}

/-- A step of a walk succeeds, with what it gives, the walk then, and the resolver that is left. -/
def Runs (m : Walking α) (w : Walk) (r : Resolver) (a : α) (w' : Walk) (r' : Resolver) : Prop :=
  Gives (m.run w) r (a, w') r'

section Runs

variable {m : Walking α} {f : α → Walking β} {w w' : Walk} {r r' : Resolver}

theorem runs_pure {a b : α} : Runs (pure a) w r b w' r' ↔ b = a ∧ w' = w ∧ r' = r := by
  unfold Runs
  rw [StateT.run_pure, gives_pure, Prod.mk.injEq, and_assoc]

theorem not_runs_throw {e : GenerationError} {a : α} : ¬Runs (throw e) w r a w' r' := by
  intro h
  have heq : ((.error e : Except GenerationError (α × Walk)), r) = (.ok (a, w'), r') := h
  simp at heq

theorem runs_bind {b : β} :
    Runs (m >>= f) w r b w' r' ↔ ∃ a w₁ r₁, Runs m w r a w₁ r₁ ∧ Runs (f a) w₁ r₁ b w' r' := by
  unfold Runs
  rw [StateT.run_bind, gives_bind]
  constructor
  · rintro ⟨⟨a, w₁⟩, r₁, hm, hf⟩
    exact ⟨a, w₁, r₁, hm, hf⟩
  · rintro ⟨a, w₁, r₁, hm, hf⟩
    exact ⟨(a, w₁), r₁, hm, hf⟩

/-- Two steps have the same outcome, and so have they with what follows where they succeed. -/
theorem outcome_bind_congr {m' : Walking α} {f' : α → Walking β}
    (hm : outcome (m.run w) r = outcome (m'.run w) r)
    (hf : ∀ a w₁ r₁, Runs m w r a w₁ r₁ → outcome ((f a).run w₁) r₁ = outcome ((f' a).run w₁) r₁) :
    outcome ((m >>= f).run w) r = outcome ((m' >>= f').run w) r := by
  rw [StateT.run_bind, StateT.run_bind, outcome_bind, outcome_bind, ← hm]
  rcases hrun : outcome (m.run w) r with ⟨_ | ⟨a, w₁⟩, r₁⟩
  · rfl
  · exact hf a w₁ r₁ hrun

theorem runs_get_bind {f : Walk → Walking β} {b : β} : Runs (get >>= f) w r b w' r' ↔ Runs (f w) w r b w' r' := by
  constructor
  · intro h
    obtain ⟨v, w₁, r₁, hget, hrest⟩ := runs_bind.mp h
    obtain ⟨hv, rfl⟩ := gives_pure.mp hget
    obtain ⟨rfl, rfl⟩ := Prod.mk.inj hv
    exact hrest
  · intro h
    exact runs_bind.mpr ⟨w, w, r, gives_pure.mpr ⟨rfl, rfl⟩, h⟩

theorem runs_modify_bind {g : Walk → Walk} {f : Unit → Walking β} {b : β} :
    Runs (modify g >>= f) w r b w' r' ↔ Runs (f ()) (g w) r b w' r' := by
  constructor
  · intro h
    obtain ⟨_, w₁, r₁, hmodify, hrest⟩ := runs_bind.mp h
    obtain ⟨hv, rfl⟩ := gives_pure.mp hmodify
    obtain ⟨rfl, rfl⟩ := Prod.mk.inj hv
    exact hrest
  · intro h
    exact runs_bind.mpr ⟨(), g w, r, gives_pure.mpr ⟨rfl, rfl⟩, h⟩

private theorem runs_set_bind {v : Walk} {f : PUnit → Walking β} {b : β} :
    Runs (set v >>= f) w r b w' r' ↔ Runs (f ⟨⟩) v r b w' r' := by
  constructor
  · intro h
    obtain ⟨_, w₁, r₁, hset, hrest⟩ := runs_bind.mp h
    obtain ⟨hv, rfl⟩ := gives_pure.mp hset
    obtain ⟨rfl, rfl⟩ := Prod.mk.inj hv
    exact hrest
  · intro h
    exact runs_bind.mpr ⟨⟨⟩, v, r, gives_pure.mpr ⟨rfl, rfl⟩, h⟩

theorem runs_lift_bind {m : Resolving α} {f : α → Walking β} {b : β} :
    Runs (liftM m >>= f) w r b w' r' ↔ ∃ a r₁, Gives m r a r₁ ∧ Runs (f a) w r₁ b w' r' := by
  have hlift : (liftM m : Walking α).run w = m >>= fun a => pure (a, w) := rfl
  constructor
  · intro h
    obtain ⟨a, w₁, r₁, hm, hrest⟩ := runs_bind.mp h
    rw [Runs, hlift] at hm
    obtain ⟨a', r₂, hgives, hpure⟩ := gives_bind.mp hm
    obtain ⟨hv, rfl⟩ := gives_pure.mp hpure
    obtain ⟨rfl, rfl⟩ := Prod.mk.inj hv
    exact ⟨a, r₁, hgives, hrest⟩
  · rintro ⟨a, r₁, hgives, hrest⟩
    refine runs_bind.mpr ⟨a, w, r₁, ?_, hrest⟩
    rw [Runs, hlift]
    exact gives_bind.mpr ⟨a, r₁, hgives, gives_pure.mpr ⟨rfl, rfl⟩⟩

end Runs

/-- A trait, told from others by the steps to its file and by its name. -/
structure TraitKey where
  file : List Path.Step
  name : String
  deriving DecidableEq

def Modules.ModuleItem.key (item : ModuleItem) : TraitKey := ⟨item.module.file.steps, item.name⟩

namespace Walk

/-- The traits that were visited, the last one first. -/
def seen (w : Walk) : List TraitKey := w.visited.map fun x => ⟨x.1.steps, x.2⟩

/-- The names of the module in a file that was looked into. -/
def scopeAt (w : Walk) (file : List Path.Step) : Option Scope :=
  (w.scopes.find? fun x => x.1.steps == file).map (·.2)

theorem scopeAt_of_mem {w : Walk} {file : List Path.Step} {s : Scope} (h : w.scopeAt file = some s) :
    ∃ path, (path, s) ∈ w.scopes ∧ path.steps = file := by
  obtain ⟨⟨path, s'⟩, hfind, rfl⟩ := Option.map_eq_some_iff.mp h
  exact ⟨path, List.mem_of_find?_eq_some hfind, by simpa using List.find?_some hfind⟩

end Walk

theorem Walking.isVisited_iff {item : ModuleItem} {w : Walk} : isVisited item w = true ↔ item.key ∈ w.seen := by
  simp [isVisited, Walk.seen, Path.same_iff, ModuleItem.key, and_comm]

/-- The names of a module of the crate with the given root, as they were found in its file. -/
structure Looked (files : Tree) (root : Path) (known : Path → Prop) (file : Path) (s : Scope) : Prop where
  belongs : Belongs root known s.package
  place : s.package.file = file
  source : Modules.Source.read files file = .ok s.source
  globs : ∀ g ∈ s.globs, Belongs root known g.1
  loaded : ∃ r r', Gives (Scope.load files s.package) r s r'

/-- What a walk and its resolver know: all of it comes from known files. -/
structure Sound (files : Tree) (root : Path) (known : Path → Prop) (w : Walk) (r : Resolver) : Prop where
  found : ∀ x ∈ r.found, known x.2.file
  scopes : ∀ x ∈ w.scopes, Looked files root known x.1 x.2

/-- A later state of a walk: what was found before is still there. -/
structure Extends (root : Path) (known : Path → Prop) (w : Walk) (r : Resolver) (w' : Walk) (r' : Resolver) :
    Prop where
  resolver : Later root known r r'
  scopes : ∀ file s, w.scopeAt file = some s → w'.scopeAt file = some s
  imports : ∀ i ∈ w.imports.toList, i ∈ w'.imports.toList

/-- A trait is implemented as it is declared, with imports that a walk has gathered. -/
structure Implements (dst : Package) (variadicSlices : Bool) (w : Walk) (k : TraitKey) (s : Scope) (d : TraitDecl)
    (t : TraitImpl) : Prop where
  scope : w.scopeAt k.file = some s
  declared : findTrait k.name [] s.source.entries = some (d, t.asyncMark)
  name : t.name = k.name
  isUnsafe : t.isUnsafe = d.isUnsafe
  generics : d.generics = none
  path : ∃ item before after, item.key = k ∧ (itemPath dst item).run.run before = (.ok t.path, after) ∧
    ∀ i ∈ after.toList, i ∈ w.imports.toList
  members : ∀ m ∈ d.members, Walking.IsBlank m ∨ (Walking.declared? m).isSome
  methods : List.Forall₂ (Method.LoweredFrom s dst variadicSlices t.path w.imports.toList)
    (d.members.filterMap Walking.declared?) t.methods

section

variable {files : Tree} {root : Path} {known : Path → Prop} {dst : Package} {variadicSlices : Bool}
  {w w' : Walk} {r r' : Resolver}

theorem Extends.refl (w : Walk) (r : Resolver) : Extends root known w r w r :=
  ⟨.refl r, fun _ _ h => h, fun _ h => h⟩

theorem Extends.trans {w₁ : Walk} {r₁ : Resolver} (h : Extends root known w r w₁ r₁)
    (h' : Extends root known w₁ r₁ w' r') : Extends root known w r w' r' where
  resolver := h.resolver.trans h'.resolver
  scopes file s hs := h'.scopes file s (h.scopes file s hs)
  imports i hi := h'.imports i (h.imports i hi)

theorem Implements.later {k : TraitKey} {s : Scope} {d : TraitDecl} {t : TraitImpl}
    (h : Implements dst variadicSlices w k s d t) (hext : Extends root known w r w' r') :
    Implements dst variadicSlices w' k s d t where
  scope := hext.scopes _ _ h.scope
  declared := h.declared
  name := h.name
  isUnsafe := h.isUnsafe
  generics := h.generics
  path := by
    obtain ⟨item, before, after, hkey, hrun, hsub⟩ := h.path
    exact ⟨item, before, after, hkey, hrun, fun i hi => hext.imports i (hsub i hi)⟩
  members := h.members
  methods := by
    refine h.methods.imp fun d m hlowered => ?_
    obtain ⟨before, after, hrun, hsub⟩ := hlowered
    exact ⟨before, after, hrun, fun i hi => hext.imports i (hsub i hi)⟩

end

namespace Walking

private theorem runs_gather {l : Lowering α} {w w' : Walk} {r r' : Resolver} {a : α} (h : Runs (gather l) w r a w' r') :
    ∃ after, l.run.run w.imports = (.ok a, after) ∧ w' = { w with imports := after } ∧ r' = r := by
  have hrest := runs_get_bind.mp h
  split at hrest
  · rename_i b imports hl
    have hpure := runs_set_bind.mp hrest
    obtain ⟨rfl, rfl, rfl⟩ := runs_pure.mp hpure
    exact ⟨imports, hl, rfl, rfl⟩
  · exact absurd hrest not_runs_throw

section

variable {files : Tree} {root : Path} {known : Path → Prop} {dst : Package} {variadicSlices : Bool}
  {w w' : Walk} {r r' : Resolver}

private theorem runs_scopeOf (hcanonical : ∀ q, known (files.canonicalOr q)) {p : Package} {s : Scope}
    (hp : Belongs root known p) (hsound : Sound files root known w r) (h : Runs (scopeOf files p) w r s w' r') :
    Sound files root known w' r' ∧ Extends root known w r w' r' ∧ w'.scopeAt p.file.steps = some s ∧
      w'.seen = w.seen ∧ w'.traits = w.traits := by
  have hrest := runs_get_bind.mp h
  have hscope : w.scopeAt p.file.steps = (w.scopes.find? fun x => x.1.same p.file).map (·.2) := rfl
  split at hrest
  · rename_i x hfind
    obtain ⟨rfl, rfl, rfl⟩ := runs_pure.mp hrest
    exact ⟨hsound, .refl _ _, by rw [hscope, hfind]; rfl, rfl, rfl⟩
  · rename_i hfind
    obtain ⟨s', r₁, hgives, hmodify⟩ := runs_lift_bind.mp hrest
    have hpure := runs_modify_bind.mp hmodify
    obtain ⟨rfl, rfl, rfl⟩ := runs_pure.mp hpure
    obtain ⟨hlater, hread⟩ := (Scope.respects_load hcanonical hp).gives hsound.found hgives
    have hlooked : Looked files root known p.file s := by
      refine ⟨?_, ?_, hread.source, hread.globs, r, r', ?_⟩
      · rwa [hread.package]
      · rw [hread.package]
      · rwa [hread.package]
    refine ⟨⟨hlater.known hsound.found, ?_⟩, ⟨hlater, fun file s₀ hs₀ => ?_, fun _ hi => hi⟩, ?_, rfl, rfl⟩
    · intro x hx
      rcases List.mem_cons.mp hx with rfl | hx
      · exact hlooked
      · exact hsound.scopes x hx
    · -- the file that is looked into was not looked into before
      have hother : (p.file.steps == file) = false := by
        rw [beq_eq_false_iff_ne]
        rintro rfl
        rw [hscope, hfind] at hs₀
        cases hs₀
      rw [Walk.scopeAt, List.find?_cons_of_neg (by simp [hother])]
      exact hs₀
    · simp [Walk.scopeAt]

theorem runs_gather_kept {l : Lowering α} {P : List Import → α → Prop} {a : α} (hl : Yields (fun _ => True) l P)
    (hsound : Sound files root known w r) (h : Runs (gather l) w r a w' r') :
    Sound files root known w' r' ∧ Extends root known w r w' r' ∧ P w'.imports.toList a ∧
      w'.seen = w.seen ∧ w'.traits = w.traits := by
  obtain ⟨after, hrun, rfl, rfl⟩ := runs_gather h
  obtain ⟨hkept, hpost⟩ := hl w.imports a after hrun
  exact ⟨⟨hsound.found, hsound.scopes⟩, ⟨.refl _, fun _ _ hs => hs, hkept⟩, hpost _ trivial fun _ hi => hi, rfl, rfl⟩

theorem yields_itemPath (dst : Package) (item : ModuleItem) :
    Yields (fun _ => True) (itemPath dst item) fun _ _ => True := by
  unfold itemPath
  dsimp only
  split
  · exact Signature.yields_of_need fun _ _ _ => trivial
  · split
    · exact Signature.yields_pure fun _ _ => trivial
    · exact Signature.yields_of_need fun _ _ _ => trivial

/-- A visit does nothing if the trait was visited before. Otherwise the trait is implemented as it is declared, and its
    bounds are left to be followed. -/
theorem runs_visit (hcanonical : ∀ q, known (files.canonicalOr q)) {item : ModuleItem} {bounds : List Pending}
    (hitem : Belongs root known item.module) (hsound : Sound files root known w r)
    (h : Runs (visit files dst variadicSlices item) w r bounds w' r') :
    (item.key ∈ w.seen ∧ bounds = [] ∧ w' = w ∧ r' = r) ∨
      (item.key ∉ w.seen ∧ Sound files root known w' r' ∧ Extends root known w r w' r' ∧
        w'.seen = item.key :: w.seen ∧ ∃ s d t, bounds = d.bounds.map (⟨s, item.name, ·⟩) ∧
          w'.traits = w.traits ++ [t] ∧ Implements dst variadicSlices w' item.key s d t) := by
  have hrest := runs_get_bind.mp h
  split at hrest
  · rename_i hvisited
    obtain ⟨rfl, rfl, rfl⟩ := runs_pure.mp hrest
    exact .inl ⟨isVisited_iff.mp hvisited, rfl, rfl, rfl⟩
  · rename_i hvisited
    refine .inr ⟨fun hseen => hvisited (isVisited_iff.mpr hseen), ?_⟩
    obtain ⟨s, w₁, r₁, hscopeOf, hfound⟩ := runs_bind.mp (runs_modify_bind.mp hrest)
    have hsound₀ : Sound files root known { w with visited := (item.module.file, item.name) :: w.visited } r :=
      ⟨hsound.found, hsound.scopes⟩
    have hext₀ : Extends root known w r { w with visited := (item.module.file, item.name) :: w.visited } r :=
      ⟨.refl r, fun _ _ hs => hs, fun _ hi => hi⟩
    obtain ⟨hsound₁, hext₁, hscope, hseen₁, htraits₁⟩ := runs_scopeOf hcanonical hitem hsound₀ hscopeOf
    split at hfound
    · exact absurd hfound not_runs_throw
    · rename_i d mark hfind
      dsimp only at hfound
      split at hfound
      · exact absurd (runs_bind.mp hfound) fun ⟨_, _, _, hthrow, _⟩ => not_runs_throw hthrow
      · rename_i hgenerics
        obtain ⟨path, w₂, r₂, hpath, hlowered⟩ := runs_bind.mp hfound
        obtain ⟨methods, w₃, r₃, hmethods, hmodify⟩ := runs_bind.mp hlowered
        have hpure := runs_modify_bind.mp hmodify
        obtain ⟨rfl, rfl, rfl⟩ := runs_pure.mp hpure
        obtain ⟨hsound₂, hext₂, ⟨before, after, hitemPath, hneeded⟩, hseen₂, htraits₂⟩ :=
          runs_gather_kept (yields_itemPath dst item).traced hsound₁ hpath
        obtain ⟨hsound₃, hext₃, ⟨hmembers, hlower⟩, hseen₃, htraits₃⟩ :=
          runs_gather_kept (yields_methodsOf Modules.yields_visible_lowerPathText item.name path d.members)
            hsound₂ hmethods
        have hext := ((hext₀.trans hext₁).trans hext₂).trans hext₃
        refine ⟨⟨hsound₃.found, hsound₃.scopes⟩, ⟨hext.resolver, hext.scopes, hext.imports⟩, ?_, s, d,
          ⟨item.name, path, d.isUnsafe, mark, methods⟩, rfl, ?_, ?_⟩
        · exact hseen₃.trans (hseen₂.trans hseen₁)
        · exact congrArg (· ++ _) (htraits₃.trans (htraits₂.trans htraits₁))
        · refine ⟨hext₃.scopes _ _ (hext₂.scopes _ _ hscope), hfind, rfl, rfl, ?_, ?_, hmembers, hlower⟩
          · exact Option.eq_none_iff_forall_ne_some.mpr hgenerics
          · exact ⟨item, before, after, rfl, hitemPath, fun i hi => hext₃.imports i (hneeded i hi)⟩

/-- A question of a walk leaves it as it is, and is answered in the same way later on. -/
def Stable (root : Path) (known : Path → Prop) (m : Walking α) (post : α → Prop) : Prop :=
  ∀ w r a w' r', (∀ x ∈ r.found, known x.2.file) → Runs m w r a w' r' →
    w' = w ∧ Later root known r r' ∧ post a ∧ ∀ w'' r'', Later root known r' r'' → Runs m w'' r'' a w'' r''

theorem stable_pure {a : α} {post : α → Prop} (h : post a) : Stable root known (pure a) post := by
  intro w r b w' r' _ hrun
  obtain ⟨rfl, rfl, rfl⟩ := runs_pure.mp hrun
  exact ⟨rfl, .refl _, h, fun _ _ _ => runs_pure.mpr ⟨rfl, rfl, rfl⟩⟩

theorem stable_throw {e : GenerationError} {post : α → Prop} : Stable root known (throw e : Walking α) post :=
  fun _ _ _ _ _ _ hrun => absurd hrun not_runs_throw

private theorem stable_moduleIn (hcanonical : ∀ q, known (files.canonicalOr q)) {base : Package}
    (hbase : Belongs root known base) (path : List String) {f : Package → α} {post : α → Prop}
    (hpost : ∀ m, Belongs root known m → post (f m)) :
    Stable root known (do
      let m ← (Resolver.moduleIn files base path : Resolving Package)
      pure (f m)) post := by
  intro w r a w' r' hknown hrun
  obtain ⟨m, r₁, hgives, hpure⟩ := runs_lift_bind.mp hrun
  obtain ⟨rfl, rfl, rfl⟩ := runs_pure.mp hpure
  obtain ⟨hlater, hm⟩ := (Resolver.respects_moduleIn hcanonical hbase path).gives hknown hgives
  refine ⟨rfl, hlater, hpost m hm, fun w'' r'' hlater' => ?_⟩
  have hagain := Resolver.gives_moduleIn_later hbase.crateRoot hgives hlater'
  exact runs_lift_bind.mpr ⟨m, r'', hagain, runs_pure.mpr ⟨rfl, rfl, rfl⟩⟩

/-- What stands at the end of a path is demanded: a trait of the crate, or none if a mock satisfies it anyway. -/
structure DemandedAt (root : Path) (known : Path → Prop) (path : String) (item? : Option ModuleItem) : Prop where
  ofCrate : ∀ item ∈ item?, Belongs root known item.module
  implied : item? = none → impliedTraits.contains ((Text.segments path).getLast?.getD "") = true

theorem stable_traitAt (hcanonical : ∀ q, known (files.canonicalOr q)) {s : Scope}
    (hs : Belongs root known s.package) (path : String) :
    Stable root known (traitAt files s path) (DemandedAt root known path) := by
  unfold traitAt
  split
  · exact stable_throw
  · split
    · exact stable_throw
    · refine stable_moduleIn hcanonical hs _ fun m hm => ⟨fun item hitem => ?_, fun hnone => by cases hnone⟩
      obtain rfl := Option.some.inj hitem
      exact hm
  · rename_i p hroute
    obtain ⟨rfl, _⟩ := Scope.outside_of_route hroute
    dsimp only
    split
    · rename_i himplied
      refine stable_pure ⟨fun _ hitem => (by cases hitem), fun _ => ?_⟩
      exact (Bool.and_eq_true_iff.mp himplied).2
    · exact stable_throw

/-- The path that a bound stands for, if it is one: a name that an import binds stands for the path of the import. -/
def boundPath (s : Scope) : SuperBound → Option String
  | .trait ⟨text, true⟩ => some (((s.importNamed text).map (·.path)).getD text)
  | .trait ⟨text, false⟩ =>
    let path := Text.relativePath (Text.compact text)
    let segs := Text.segments path
    some (match s.importNamed (segs.head?.getD "") with
      | some i => i.path ++ "::" ++ Text.joinPath (segs.drop 1)
      | none => path)
  | _ => none

/-- What a bound demands: a trait of the crate, or none. Only markers are passed over, and traits that a mock satisfies
    anyway. -/
structure DemandedBy (root : Path) (known : Path → Prop) (p : Pending) (item? : Option ModuleItem) : Prop where
  ofCrate : ∀ item ∈ item?, Belongs root known item.module
  implied : item? = none → p.bound = .marker ∨ ∃ path, boundPath p.scope p.bound = some path ∧
    impliedTraits.contains ((Text.segments path).getLast?.getD "") = true

theorem Stable.mono {m : Walking α} {P Q : α → Prop} (h : Stable root known m P) (hpost : ∀ a, P a → Q a) :
    Stable root known m Q := by
  intro w r a w' r' hknown hrun
  obtain ⟨hwalk, hlater, ha, hagain⟩ := h w r a w' r' hknown hrun
  exact ⟨hwalk, hlater, hpost a ha, hagain⟩

theorem DemandedAt.by_path {p : Pending} {path : String} {item? : Option ModuleItem}
    (h : DemandedAt root known path item?) (hpath : boundPath p.scope p.bound = some path) :
    DemandedBy root known p item? :=
  ⟨h.ofCrate, fun hnone => .inr ⟨path, hpath, h.implied hnone⟩⟩

private theorem segments_of_implied {name : String} (h : impliedTraits.contains name = true) : Text.segments name = [name] := by
  have hnames : ∀ n ∈ impliedTraits, Text.IsName n := by decide
  exact Text.segments_of_isName (hnames name (by simpa using h))

private theorem stable_traitNamed (hcanonical : ∀ q, known (files.canonicalOr q)) {s : Scope} {owner name : String}
    (hs : Belongs root known s.package) (hglobs : ∀ g ∈ s.globs, Belongs root known g.1) :
    Stable root known (traitNamed files s owner name)
      (DemandedBy root known ⟨s, owner, .trait ⟨name, true⟩⟩) := by
  unfold traitNamed
  split
  · rename_i item _ hitem
    refine stable_pure ⟨fun item' hitem' => ?_, fun hnone => by cases hnone⟩
    obtain rfl := Option.some.inj hitem'
    obtain ⟨_, _, _, hmodule⟩ := Modules.item?_eq_some (fun _ => none) hitem
    rcases hmodule with hmodule | ⟨g, hg, hmodule⟩
    · rwa [hmodule]
    · rw [hmodule]
      exact hglobs g hg
  · rename_i i _ himport
    refine (stable_traitAt hcanonical hs i.path).mono fun item? hdemanded => hdemanded.by_path ?_
    simp [boundPath, himport]
  · rename_i _ himport
    split
    · rename_i himplied
      refine stable_pure ⟨fun _ hitem => (by cases hitem), fun _ => .inr ⟨name, ?_, ?_⟩⟩
      · simp [boundPath, himport]
      · rw [segments_of_implied himplied]
        exact himplied
    · split
      · exact stable_throw
      · exact stable_throw

theorem stable_demanded (hcanonical : ∀ q, known (files.canonicalOr q)) {p : Pending}
    (hs : Belongs root known p.scope.package) (hglobs : ∀ g ∈ p.scope.globs, Belongs root known g.1) :
    Stable root known (demanded files p) (DemandedBy root known p) := by
  obtain ⟨s, owner, b⟩ := p
  unfold demanded
  split
  · rename_i hmarker
    exact stable_pure ⟨fun _ hitem => (by cases hitem), fun _ => .inl hmarker⟩
  · rename_i name hbound
    obtain rfl : b = .trait ⟨name, true⟩ := hbound
    exact stable_traitNamed hcanonical hs hglobs
  · rename_i text hbound
    obtain rfl : b = .trait ⟨text, false⟩ := hbound
    unfold traitOnPath
    dsimp only
    split
    · rename_i i himport
      refine (stable_traitAt hcanonical hs _).mono fun item? hdemanded => hdemanded.by_path ?_
      simp [boundPath, himport]
    · rename_i himport
      refine (stable_traitAt hcanonical hs _).mono fun item? hdemanded => hdemanded.by_path ?_
      simp [boundPath, himport]
  · exact stable_throw

end

end Walking

end TraitMock
