import TraitMock.Proofs.Interface.Depth
import TraitMock.Proofs.Interface.Preorder

namespace TraitMock

open Files (Tree)
open Modules (ModuleItem Scope)
open Syntax (SuperBound TraitDecl)

/-- The trait that a bound demands, as a resolver answers. -/
def answer? (files : Tree) (r : Resolver) (p : Pending) : Option ModuleItem :=
  match outcome ((Walking.demanded files p).run {}) r with
  | (.ok (item?, _), _) => item?
  | (.error _, _) => none

/-- The traits that bounds demand, in order. -/
def answers (files : Tree) (r : Resolver) (bounds : List Pending) : List TraitKey :=
  bounds.filterMap fun p => (answer? files r p).map ModuleItem.key

/-- The bounds of a trait of a module. -/
def pendingOf (s : Scope) (name : String) (d : TraitDecl) : List Pending := d.bounds.map (⟨s, name, ·⟩)

/-- The traits that a trait demands, in order, by the modules that a walk has looked into. -/
def Walk.demands (files : Tree) (w : Walk) (r : Resolver) (k : TraitKey) : List TraitKey :=
  match w.scopeAt k.file with
  | none => []
  | some s =>
    match findTrait k.name [] s.source.entries with
    | none => []
    | some (d, _) => answers files r (pendingOf s k.name d)

/-- A bound is answered by a resolver, which is left as it is: it demands a trait of the crate, or none. -/
def Answered (files : Tree) (root : Path) (known : Path → Prop) (r : Resolver) (p : Pending) : Prop :=
  ∃ item?, Walking.DemandedBy root known p item? ∧
    ∀ w r', Later root known r r' → Runs (Walking.demanded files p) w r' item? w r'

/-- The trait of a key is listed: it is implemented as a module declares it that was looked into, and its bounds are
    answered. -/
def Listed (files : Tree) (root : Path) (known : Path → Prop) (dst : Package) (variadicSlices : Bool) (w : Walk)
    (r : Resolver) (k : TraitKey) (t : TraitImpl) : Prop :=
  ∃ s d, Implements dst variadicSlices w k s d t ∧ ∀ p ∈ pendingOf s k.name d, Answered files root known r p

/-- What a part of a walk does: it keeps what was found and lists more traits, which are those that a depth-first walk
    of `todo` meets if the part is allowed to go deep enough. -/
structure Meets (files : Tree) (root : Path) (known : Path → Prop) (dst : Package) (variadicSlices : Bool)
    (enough : Prop) (todo : Resolver → List TraitKey) (w : Walk) (r : Resolver) (w' : Walk) (r' : Resolver) :
    Prop where
  sound : Sound files root known w' r'
  trail : Trail w'
  extends_ : Extends root known w r w' r'
  met : ∃ order traits, w'.seen = order.reverse ++ w.seen ∧ w'.traits = w.traits ++ traits ∧
    List.Forall₂ (Listed files root known dst variadicSlices w' r') order traits ∧
    (enough → ∀ w'' r'', Extends root known w' r' w'' r'' →
      DepthFirst (w''.demands files r'') w.seen (todo r'') order)

section

variable {files : Tree} {root : Path} {known : Path → Prop} {dst : Package} {variadicSlices : Bool}
  {w w' : Walk} {r r' : Resolver}

theorem Answered.later {p : Pending} (h : Answered files root known r p) (hlater : Later root known r r') :
    Answered files root known r' p := by
  obtain ⟨item?, hof, hruns⟩ := h
  exact ⟨item?, hof, fun w r'' hlater' => hruns w r'' (hlater.trans hlater')⟩

theorem Listed.later {k : TraitKey} {t : TraitImpl} (h : Listed files root known dst variadicSlices w r k t)
    (hext : Extends root known w r w' r') : Listed files root known dst variadicSlices w' r' k t := by
  obtain ⟨s, d, himpl, hanswered⟩ := h
  exact ⟨s, d, himpl.later hext, fun p hp => (hanswered p hp).later hext.resolver⟩

theorem Sound.looked {file : List Path.Step} {s : Scope} (h : Sound files root known w r)
    (hscope : w.scopeAt file = some s) : ∃ path, path.steps = file ∧ Looked files root known path s := by
  obtain ⟨path, hmem, hsteps⟩ := Walk.scopeAt_of_mem hscope
  exact ⟨path, hsteps, h.scopes _ hmem⟩

private theorem answer?_of_runs {p : Pending} {item? : Option ModuleItem}
    (h : Runs (Walking.demanded files p) {} r item? {} r') : answer? files r p = item? := by
  rw [Runs, Gives] at h
  rw [answer?, h]

private theorem demands_of_implements {k : TraitKey} {s : Scope} {d : TraitDecl} {t : TraitImpl}
    (h : Implements dst variadicSlices w k s d t) : w.demands files r k = answers files r (pendingOf s k.name d) := by
  rw [Walk.demands, h.scope]
  dsimp only
  rw [h.declared]

theorem Trail.cons {k : TraitKey} {s : Scope} {d : TraitDecl} {t : TraitImpl} (h : Trail w) (hfresh : k ∉ w.seen)
    (hseen : w'.seen = k :: w.seen) (himpl : Implements dst variadicSlices w' k s d t)
    (hext : Extends root known w r w' r') : Trail w' where
  once := hseen ▸ List.nodup_cons.mpr ⟨hfresh, h.once⟩
  declared k' hk' := by
    rw [hseen] at hk'
    rcases List.mem_cons.mp hk' with rfl | hk'
    · exact ⟨s, himpl.scope, by rw [himpl.declared]; rfl⟩
    · obtain ⟨s', hscope, hdeclared⟩ := h.declared k' hk'
      exact ⟨s', hext.scopes _ _ hscope, hdeclared⟩

namespace Meets

variable {enough : Prop} {todo : Resolver → List TraitKey}

theorem nothing (hsound : Sound files root known w r') (htrail : Trail w) (hlater : Later root known r r')
    (htodo : ∀ r'', Later root known r' r'' → ∀ k ∈ todo r'', k ∈ w.seen) :
    Meets files root known dst variadicSlices enough todo w r w r' where
  sound := hsound
  trail := htrail
  extends_ := ⟨hlater, fun _ _ hs => hs, fun _ hi => hi⟩
  met := by
    refine ⟨[], [], rfl, (List.append_nil _).symm, .nil, fun _ w'' r'' hext => ?_⟩
    exact .of_seen (htodo r'' hext.resolver)

theorem length_le (h : Meets files root known dst variadicSlices enough todo w r w' r') :
    w.seen.length ≤ w'.seen.length := by
  obtain ⟨order, _, hseen, _⟩ := h.met
  rw [hseen, List.length_append]
  exact Nat.le_add_left _ _

theorem congr {todo' : Resolver → List TraitKey}
    (h : Meets files root known dst variadicSlices enough todo w r w' r')
    (htodo : ∀ r'', Later root known r' r'' → todo r'' = todo' r'') :
    Meets files root known dst variadicSlices enough todo' w r w' r' where
  sound := h.sound
  trail := h.trail
  extends_ := h.extends_
  met := by
    obtain ⟨order, traits, hseen, htraits, hlisted, horder⟩ := h.met
    exact ⟨order, traits, hseen, htraits, hlisted, fun hdeep w'' r'' hext =>
      htodo r'' hext.resolver ▸ horder hdeep w'' r'' hext⟩

/-- One part of a walk behind another. -/
theorem trans {enough' : Prop} {todo' : Resolver → List TraitKey} {w₁ : Walk} {r₁ : Resolver}
    (h : Meets files root known dst variadicSlices enough todo w r w₁ r₁)
    (h' : Meets files root known dst variadicSlices enough' todo' w₁ r₁ w' r') (henough : enough → enough') :
    Meets files root known dst variadicSlices enough (fun r'' => todo r'' ++ todo' r'') w r w' r' where
  sound := h'.sound
  trail := h'.trail
  extends_ := h.extends_.trans h'.extends_
  met := by
    obtain ⟨order, traits, hseen, htraits, hlisted, horder⟩ := h.met
    obtain ⟨order', traits', hseen', htraits', hlisted', horder'⟩ := h'.met
    refine ⟨order ++ order', traits ++ traits', ?_, ?_, ?_, fun hdeep w'' r'' hext => ?_⟩
    · rw [hseen', hseen, List.reverse_append, List.append_assoc]
    · rw [htraits', htraits, List.append_assoc]
    · exact List.rel_append (hlisted.imp fun _ _ hl => hl.later h'.extends_) hlisted'
    · have hfirst := horder hdeep w'' r'' (h'.extends_.trans hext)
      have hrest := horder' (henough hdeep) w'' r'' hext
      rw [hseen] at hrest
      exact hfirst.append hrest

end Meets

namespace Walking

/-- Follows a bound: the trait that it demands is expanded, at most `n` traits deep. -/
def followBound (files : Tree) (dst : Package) (variadicSlices : Bool) (n : Nat) (p : Pending) : Walking Unit := do
  match ← demanded files p with
  | none => pure ()
  | some next => expand files dst variadicSlices n next

theorem expand_succ (n : Nat) (item : ModuleItem) :
    expand files dst variadicSlices (n + 1) item = visit files dst variadicSlices item >>= fun bounds =>
      bounds.forM (followBound files dst variadicSlices n) := rfl

/-- A bound that was found in a module of the crate. -/
structure OfCrate (root : Path) (known : Path → Prop) (p : Pending) : Prop where
  package : Belongs root known p.scope.package
  globs : ∀ g ∈ p.scope.globs, Belongs root known g.1

theorem ofCrate_of_visit {k : TraitKey} {s : Scope} {d : TraitDecl} {t : TraitImpl}
    (hsound : Sound files root known w r) (himpl : Implements dst variadicSlices w k s d t) :
    ∀ p ∈ pendingOf s k.name d, OfCrate root known p := by
  obtain ⟨_, _, hlooked⟩ := hsound.looked himpl.scope
  intro p hp
  obtain ⟨b, _, rfl⟩ := List.mem_map.mp hp
  exact ⟨hlooked.belongs, hlooked.globs⟩

variable {bound : Nat}

section Bounds

variable {n : Nat} (hcanonical : ∀ q, known (files.canonicalOr q))
  (hexpand : ∀ item w r w' r', Belongs root known item.module → Sound files root known w r → Trail w →
    Runs (expand files dst variadicSlices n item) w r () w' r' →
    Meets files root known dst variadicSlices (bound < n + w.seen.length) (fun _ => [item.key]) w r w' r')

include hcanonical hexpand

theorem followBound_meets {p : Pending} (hp : OfCrate root known p) (hsound : Sound files root known w r)
    (htrail : Trail w) (h : Runs (followBound files dst variadicSlices n p) w r () w' r') :
    Meets files root known dst variadicSlices (bound < n + w.seen.length) (fun r'' => answers files r'' [p]) w r w' r' ∧
      Answered files root known r' p := by
  obtain ⟨item?, w₁, r₁, hdemanded, hfollow⟩ := runs_bind.mp h
  obtain ⟨rfl, hlater, hof, hagain⟩ :=
    stable_demanded hcanonical hp.package hp.globs w r item? w₁ r₁ hsound.found hdemanded
  have hanswered : Answered files root known r₁ p := ⟨item?, hof, hagain⟩
  have hsound₁ : Sound files root known w₁ r₁ := ⟨hlater.known hsound.found, hsound.scopes⟩
  have hanswer : ∀ r'', Later root known r₁ r'' → answer? files r'' p = item? := fun r'' hlater' =>
    answer?_of_runs (hagain {} r'' hlater')
  cases item? with
  | none =>
    obtain ⟨_, rfl, rfl⟩ := runs_pure.mp hfollow
    refine ⟨.nothing hsound₁ htrail hlater fun r'' hlater' k hk => ?_, hanswered⟩
    simp [answers, hanswer r'' hlater'] at hk
  | some next =>
    have hnext := hexpand next w₁ r₁ w' r' (hof.ofCrate next rfl) hsound₁ htrail hfollow
    have hempty : Meets files root known dst variadicSlices (bound < n + w₁.seen.length) (fun _ => []) w₁ r w₁ r₁ :=
      .nothing hsound₁ htrail hlater fun _ _ k hk => absurd hk List.not_mem_nil
    refine ⟨(hempty.trans hnext fun hdeep => hdeep).congr fun r'' hlater' => ?_,
      hanswered.later hnext.extends_.resolver⟩
    simp [answers, hanswer r'' (hnext.extends_.resolver.trans hlater')]

/-- Bounds are followed one after another, each of them to its end. -/
theorem followBounds_meets {bounds : List Pending} (hbounds : ∀ p ∈ bounds, OfCrate root known p)
    (hsound : Sound files root known w r) (htrail : Trail w)
    (h : Runs (bounds.forM (followBound files dst variadicSlices n)) w r () w' r') :
    Meets files root known dst variadicSlices (bound < n + w.seen.length) (fun r'' => answers files r'' bounds)
        w r w' r' ∧ ∀ p ∈ bounds, Answered files root known r' p := by
  induction bounds generalizing w r with
  | nil =>
    obtain ⟨_, rfl, rfl⟩ := runs_pure.mp h
    exact ⟨.nothing hsound htrail (.refl _) fun _ _ k hk => absurd hk List.not_mem_nil,
      fun p hp => absurd hp List.not_mem_nil⟩
  | cons p rest ih =>
    obtain ⟨_, w₁, r₁, hfirst, hrest⟩ := runs_bind.mp (show Runs (followBound files dst variadicSlices n p >>=
      fun _ => rest.forM (followBound files dst variadicSlices n)) w r () w' r' from h)
    obtain ⟨hmeets, hanswered⟩ :=
      followBound_meets hcanonical hexpand (hbounds p List.mem_cons_self) hsound htrail hfirst
    obtain ⟨hmeetsRest, hansweredRest⟩ :=
      ih (fun p hp => hbounds p (List.mem_cons_of_mem _ hp)) hmeets.sound hmeets.trail hrest
    have hlength := hmeets.length_le
    refine ⟨(hmeets.trans hmeetsRest fun hdeep => by omega).congr fun r'' _ => ?_, fun q hq => ?_⟩
    · rw [answers, answers, answers, ← List.filterMap_append, List.singleton_append]
    · rcases List.mem_cons.mp hq with rfl | hq
      · exact hanswered.later hmeetsRest.extends_.resolver
      · exact hansweredRest q hq

private theorem followBounds_deep {m : Nat}
    (hdeep : ∀ item w r, Belongs root known item.module → Sound files root known w r → Trail w →
      bound < n + w.seen.length → bound < m + w.seen.length →
      outcome ((expand files dst variadicSlices n item).run w) r =
        outcome ((expand files dst variadicSlices m item).run w) r)
    {bounds : List Pending} (hbounds : ∀ p ∈ bounds, OfCrate root known p) (hsound : Sound files root known w r)
    (htrail : Trail w) (hn : bound < n + w.seen.length) (hm : bound < m + w.seen.length) :
    outcome ((bounds.forM (followBound files dst variadicSlices n)).run w) r =
      outcome ((bounds.forM (followBound files dst variadicSlices m)).run w) r := by
  induction bounds generalizing w r with
  | nil => rfl
  | cons p rest ih =>
    have hp := hbounds p List.mem_cons_self
    have hfirst : outcome ((followBound files dst variadicSlices n p).run w) r =
        outcome ((followBound files dst variadicSlices m p).run w) r := by
      refine outcome_bind_congr rfl fun item? w₁ r₁ hdemanded => ?_
      obtain ⟨rfl, hlater, hof, _⟩ :=
        stable_demanded hcanonical hp.package hp.globs w r item? w₁ r₁ hsound.found hdemanded
      cases item? with
      | none => rfl
      | some next => exact hdeep next w₁ r₁ (hof.ofCrate next rfl) ⟨hlater.known hsound.found, hsound.scopes⟩ htrail hn hm
    refine outcome_bind_congr hfirst fun _ w₁ r₁ hrun => ?_
    obtain ⟨hmeets, _⟩ := followBound_meets hcanonical hexpand hp hsound htrail hrun
    have hlength := hmeets.length_le
    exact ih (fun p hp => hbounds p (List.mem_cons_of_mem _ hp)) hmeets.sound hmeets.trail (by omega) (by omega)

end Bounds

/-- The walk from a trait on. The induction is on how deep it may go. -/
theorem expand_meets (hcanonical : ∀ q, known (files.canonicalOr q))
    (hbound : ∀ w r, Trail w → Sound files root known w r → w.seen.length ≤ bound) (n : Nat) :
    ∀ item w r w' r', Belongs root known item.module → Sound files root known w r → Trail w →
      Runs (expand files dst variadicSlices n item) w r () w' r' →
      Meets files root known dst variadicSlices (bound < n + w.seen.length) (fun _ => [item.key]) w r w' r' := by
  induction n with
  | zero =>
    intro item w r w' r' _ hsound htrail h
    obtain ⟨_, rfl, rfl⟩ := runs_pure.mp h
    have hshallow := hbound w' r' htrail hsound
    refine ⟨hsound, htrail, .refl _ _, [], [], rfl, (List.append_nil _).symm, .nil, fun hdeep => ?_⟩
    omega
  | succ n ih =>
    intro item w r w' r' hitem hsound htrail h
    rw [expand_succ] at h
    obtain ⟨bounds, w₁, r₁, hvisit, hfollow⟩ := runs_bind.mp h
    rcases runs_visit hcanonical hitem hsound hvisit with
      ⟨hseen, rfl, rfl, rfl⟩ | ⟨hfresh, hsound₁, hext, hseen, s, d, t, rfl, htraits, himpl⟩
    · obtain ⟨_, rfl, rfl⟩ := runs_pure.mp hfollow
      refine .nothing hsound htrail (.refl _) fun _ _ k hk => ?_
      rwa [List.mem_singleton.mp hk]
    · have htrail₁ := htrail.cons hfresh hseen himpl hext
      obtain ⟨hmeets, hanswered⟩ :=
        followBounds_meets hcanonical ih (ofCrate_of_visit hsound₁ himpl) hsound₁ htrail₁ hfollow
      obtain ⟨below, traits, hseenBelow, htraitsBelow, hlisted, horder⟩ := hmeets.met
      refine ⟨hmeets.sound, hmeets.trail, hext.trans hmeets.extends_, item.key :: below, t :: traits, ?_, ?_, ?_, ?_⟩
      · rw [hseenBelow, hseen, List.reverse_cons, List.append_assoc, List.singleton_append]
      · rw [htraitsBelow, htraits, List.append_assoc, List.singleton_append]
      · exact .cons ⟨s, d, himpl.later hmeets.extends_, hanswered⟩ hlisted
      · intro hdeep w'' r'' hext'
        have hdemands : w''.demands files r'' item.key = answers files r'' (pendingOf s item.name d) :=
          demands_of_implements (himpl.later (hmeets.extends_.trans hext'))
        have hbelow := horder (by rw [hseen, List.length_cons]; omega) w'' r'' hext'
        rw [hseen] at hbelow
        rw [← List.append_nil (item.key :: below)]
        refine .fresh hfresh ?_ (.done _)
        rw [hdemands]
        exact hbelow

/-- A walk that may go deep enough does the same when it may go deeper, also where it fails. The induction is on how
    deep it may go; a visit makes up for the step that is lost, and no walk runs out of steps. -/
theorem expand_deep (hcanonical : ∀ q, known (files.canonicalOr q))
    (hbound : ∀ w r, Trail w → Sound files root known w r → w.seen.length ≤ bound) (n : Nat) :
    ∀ m item w r, Belongs root known item.module → Sound files root known w r → Trail w →
      bound < n + w.seen.length → bound < m + w.seen.length →
      outcome ((expand files dst variadicSlices n item).run w) r =
        outcome ((expand files dst variadicSlices m item).run w) r := by
  induction n with
  | zero =>
    intro m item w r _ hsound htrail hdeep _
    have hshallow := hbound w r htrail hsound
    omega
  | succ n ih =>
    intro m item w r hitem hsound htrail hdeep hdeep'
    cases m with
    | zero =>
      have hshallow := hbound w r htrail hsound
      omega
    | succ m =>
      rw [expand_succ, expand_succ]
      refine outcome_bind_congr rfl fun bounds w₁ r₁ hvisit => ?_
      rcases runs_visit hcanonical hitem hsound hvisit with
        ⟨_, rfl, rfl, rfl⟩ | ⟨hfresh, hsound₁, hext, hseen, s, d, t, rfl, _, himpl⟩
      · rfl
      · have htrail₁ := htrail.cons hfresh hseen himpl hext
        have hlength : w₁.seen.length = w.seen.length + 1 := by rw [hseen, List.length_cons]
        have hbounds := ofCrate_of_visit hsound₁ himpl
        refine followBounds_deep hcanonical (expand_meets hcanonical hbound n) (fun item w r => ih m item w r) hbounds
          hsound₁ htrail₁ ?_ ?_
        · omega
        · omega

end Walking

end

end TraitMock
