import TraitMock.Proofs.Signature.Parts
import TraitMock.Signature.Printer

namespace TraitMock.Signature

section Taking

/-- A lifetime that can be named anywhere: one that ends is left to be found. -/
def lastingLifetime (l : String) : String := if l = staticLifetime then l else "'_"

theorem lastingLifetime_cases (l : String) : lastingLifetime l = staticLifetime ∨ lastingLifetime l = "'_" := by
  unfold lastingLifetime
  split
  · rename_i hstatic
    exact .inl hstatic
  · exact .inr rfl

mutual

/-- A type without the lifetimes that end: references have none, and elsewhere `'_` stands for them. -/
def SigType.withoutLifetimes : SigType → SigType
  | .path p args => .path p (argsWithoutLifetimes args)
  | .reference l isMutable inner => .reference (l.filter (· = staticLifetime)) isMutable inner.withoutLifetimes
  | .pointer isMutable inner => .pointer isMutable inner.withoutLifetimes
  | .array element length => .array element.withoutLifetimes length
  | .slice element => .slice element.withoutLifetimes
  | .tuple elements => .tuple (typesWithoutLifetimes elements)
  | .parenthesized inner => .parenthesized inner.withoutLifetimes
  | .dynamic bounds => .dynamic (boundsWithoutLifetimes bounds)
  | .abstract bounds => .abstract (boundsWithoutLifetimes bounds)
  | .function head params result =>
    .function head (typesWithoutLifetimes params) (resultWithoutLifetimes result)
  | .never => .never

def typesWithoutLifetimes : List SigType → List SigType
  | [] => []
  | t :: rest => t.withoutLifetimes :: typesWithoutLifetimes rest

def resultWithoutLifetimes : Option SigType → Option SigType
  | none => none
  | some t => some t.withoutLifetimes

def argsWithoutLifetimes : List GenericArg → List GenericArg
  | [] => []
  | .type t :: rest => .type t.withoutLifetimes :: argsWithoutLifetimes rest
  | .lifetime l :: rest => .lifetime (lastingLifetime l) :: argsWithoutLifetimes rest
  | .binding name t :: rest => .binding name t.withoutLifetimes :: argsWithoutLifetimes rest
  | .const text :: rest => .const text :: argsWithoutLifetimes rest

def boundsWithoutLifetimes : List Bound → List Bound
  | [] => []
  | .trait binder isRelaxed t :: rest => .trait binder isRelaxed t.withoutLifetimes :: boundsWithoutLifetimes rest
  | .lifetime l :: rest => .lifetime (lastingLifetime l) :: boundsWithoutLifetimes rest

end

end Taking

section Rendering

private theorem ofReference_elided (l : Option String) :
    LifetimeStyle.elided.ofReference l = LifetimeStyle.kept.ofReference (l.filter (· = staticLifetime)) := by
  cases l with
  | none => rfl
  | some l =>
    rw [Option.filter_some]
    by_cases hstatic : l = staticLifetime
    · simp [LifetimeStyle.ofReference, hstatic]
    · simp [LifetimeStyle.ofReference, hstatic]

theorem lifetime_elided (l : String) :
    LifetimeStyle.elided.lifetime l = LifetimeStyle.kept.lifetime (lastingLifetime l) := by
  by_cases hstatic : l = staticLifetime
  · simp [LifetimeStyle.lifetime, lastingLifetime, hstatic]
  · simp [LifetimeStyle.lifetime, lastingLifetime, hstatic]

mutual

/-- Without its short lifetimes, a type is written as the type that has none. -/
theorem render_elided : (t : SigType) → t.render .elided = t.withoutLifetimes.render .kept
  | .path p args => by
    rw [SigType.withoutLifetimes, SigType.render, SigType.render, renderArgs_elided args]
  | .reference l isMutable inner => by
    rw [SigType.withoutLifetimes, SigType.render, SigType.render, ofReference_elided, render_elided inner]
  | .pointer isMutable inner => by
    rw [SigType.withoutLifetimes, SigType.render, SigType.render, render_elided inner]
  | .array element length => by
    rw [SigType.withoutLifetimes, SigType.render, SigType.render, render_elided element]
  | .slice element => by
    rw [SigType.withoutLifetimes, SigType.render, SigType.render, render_elided element]
  | .tuple elements => by
    rw [SigType.withoutLifetimes, SigType.render, SigType.render, renderTypes_elided elements]
  | .parenthesized inner => by
    rw [SigType.withoutLifetimes, SigType.render, SigType.render, render_elided inner]
  | .dynamic bounds => by
    rw [SigType.withoutLifetimes, SigType.render, SigType.render, renderBounds_elided bounds]
  | .abstract bounds => by
    rw [SigType.withoutLifetimes, SigType.render, SigType.render, renderBounds_elided bounds]
  | .function head params result => by
    rw [SigType.withoutLifetimes, SigType.render, SigType.render, renderTypes_elided params,
      renderResult_elided result]
  | .never => rfl

theorem renderTypes_elided : (ts : List SigType) →
    renderTypes .elided ts = renderTypes .kept (typesWithoutLifetimes ts)
  | [] => rfl
  | t :: rest => by
    rw [typesWithoutLifetimes, renderTypes, renderTypes, render_elided t, renderTypes_elided rest]

theorem renderResult_elided : (result : Option SigType) →
    renderResult .elided result = renderResult .kept (resultWithoutLifetimes result)
  | none => rfl
  | some t => by rw [resultWithoutLifetimes, renderResult, renderResult, render_elided t]

theorem renderArgs_elided : (args : List GenericArg) →
    renderArgs .elided args = renderArgs .kept (argsWithoutLifetimes args)
  | [] => rfl
  | .type t :: rest => by
    rw [argsWithoutLifetimes, renderArgs, renderArgs, GenericArg.render, GenericArg.render, render_elided t,
      renderArgs_elided rest]
  | .lifetime l :: rest => by
    rw [argsWithoutLifetimes, renderArgs, renderArgs, GenericArg.render, GenericArg.render, lifetime_elided,
      renderArgs_elided rest]
  | .binding name t :: rest => by
    rw [argsWithoutLifetimes, renderArgs, renderArgs, GenericArg.render, GenericArg.render, render_elided t,
      renderArgs_elided rest]
  | .const text :: rest => by
    rw [argsWithoutLifetimes, renderArgs, renderArgs, GenericArg.render, GenericArg.render, renderArgs_elided rest]

theorem renderBounds_elided : (bounds : List Bound) →
    renderBounds .elided bounds = renderBounds .kept (boundsWithoutLifetimes bounds)
  | [] => rfl
  | .trait binder isRelaxed t :: rest => by
    have ht := render_elided t
    rw [boundsWithoutLifetimes, renderBounds, renderBounds, renderBounds_elided rest]
    cases binder <;> rw [Bound.render, Bound.render, ht]
  | .lifetime l :: rest => by
    rw [boundsWithoutLifetimes, renderBounds, renderBounds, Bound.render, Bound.render, lifetime_elided,
      renderBounds_elided rest]

end

end Rendering

section Naming

mutual

/-- Lifetimes are taken away from each part of a type by itself. -/
theorem parts_withoutLifetimes : (t : SigType) → t.withoutLifetimes.parts = t.parts.map SigType.withoutLifetimes
  | .path _ args => by
    rw [SigType.parts, List.map_cons, SigType.withoutLifetimes, SigType.parts, partsOfArgs_withoutLifetimes args]
  | .reference _ _ inner => by
    rw [SigType.parts, List.map_cons, SigType.withoutLifetimes, SigType.parts, parts_withoutLifetimes inner]
  | .pointer _ inner => by
    rw [SigType.parts, List.map_cons, SigType.withoutLifetimes, SigType.parts, parts_withoutLifetimes inner]
  | .array element _ => by
    rw [SigType.parts, List.map_cons, SigType.withoutLifetimes, SigType.parts, parts_withoutLifetimes element]
  | .slice element => by
    rw [SigType.parts, List.map_cons, SigType.withoutLifetimes, SigType.parts, parts_withoutLifetimes element]
  | .tuple elements => by
    rw [SigType.parts, List.map_cons, SigType.withoutLifetimes, SigType.parts, partsOfTypes_withoutLifetimes elements]
  | .parenthesized inner => by
    rw [SigType.parts, List.map_cons, SigType.withoutLifetimes, SigType.parts, parts_withoutLifetimes inner]
  | .dynamic bounds => by
    rw [SigType.parts, List.map_cons, SigType.withoutLifetimes, SigType.parts, partsOfBounds_withoutLifetimes bounds]
  | .abstract bounds => by
    rw [SigType.parts, List.map_cons, SigType.withoutLifetimes, SigType.parts, partsOfBounds_withoutLifetimes bounds]
  | .function _ params result => by
    rw [SigType.parts, List.map_cons, SigType.withoutLifetimes, SigType.parts, List.map_append,
      partsOfTypes_withoutLifetimes params, partsOfResult_withoutLifetimes result]
  | .never => rfl

theorem partsOfTypes_withoutLifetimes : (ts : List SigType) →
    partsOfTypes (typesWithoutLifetimes ts) = (partsOfTypes ts).map SigType.withoutLifetimes
  | [] => rfl
  | t :: rest => by
    rw [typesWithoutLifetimes, partsOfTypes, partsOfTypes, List.map_append, parts_withoutLifetimes t,
      partsOfTypes_withoutLifetimes rest]

theorem partsOfResult_withoutLifetimes : (result : Option SigType) →
    partsOfResult (resultWithoutLifetimes result) = (partsOfResult result).map SigType.withoutLifetimes
  | none => rfl
  | some t => by rw [resultWithoutLifetimes, partsOfResult, partsOfResult, parts_withoutLifetimes t]

theorem partsOfArgs_withoutLifetimes : (args : List GenericArg) →
    partsOfArgs (argsWithoutLifetimes args) = (partsOfArgs args).map SigType.withoutLifetimes
  | [] => rfl
  | .type t :: rest => by
    rw [argsWithoutLifetimes, partsOfArgs, partsOfArgs, List.map_append, parts_withoutLifetimes t,
      partsOfArgs_withoutLifetimes rest]
  | .binding _ t :: rest => by
    rw [argsWithoutLifetimes, partsOfArgs, partsOfArgs, List.map_append, parts_withoutLifetimes t,
      partsOfArgs_withoutLifetimes rest]
  | .lifetime _ :: rest => by
    rw [argsWithoutLifetimes, partsOfArgs, partsOfArgs, partsOfArgs_withoutLifetimes rest]
  | .const _ :: rest => by
    rw [argsWithoutLifetimes, partsOfArgs, partsOfArgs, partsOfArgs_withoutLifetimes rest]

theorem partsOfBounds_withoutLifetimes : (bounds : List Bound) →
    partsOfBounds (boundsWithoutLifetimes bounds) = (partsOfBounds bounds).map SigType.withoutLifetimes
  | [] => rfl
  | .trait _ _ t :: rest => by
    rw [boundsWithoutLifetimes, partsOfBounds, partsOfBounds, List.map_append, parts_withoutLifetimes t,
      partsOfBounds_withoutLifetimes rest]
  | .lifetime _ :: rest => by
    rw [boundsWithoutLifetimes, partsOfBounds, partsOfBounds, partsOfBounds_withoutLifetimes rest]

end

/-- What stands at a type without the lifetimes that end. -/
theorem own_withoutLifetimes (t : SigType) :
    (∀ l ∈ t.withoutLifetimes.ownLifetimes, l = staticLifetime ∨ l = "'_") ∧
      t.withoutLifetimes.ownTexts = t.ownTexts := by
  have hargs : ∀ args, (∀ l ∈ (argsWithoutLifetimes args).flatMap GenericArg.ownLifetimes,
      l = staticLifetime ∨ l = "'_") ∧
      (argsWithoutLifetimes args).flatMap GenericArg.ownTexts = args.flatMap GenericArg.ownTexts := by
    intro args
    induction args with
    | nil => exact ⟨by simp [argsWithoutLifetimes], rfl⟩
    | cons a rest ih =>
      cases a <;>
        simpa [argsWithoutLifetimes, GenericArg.ownLifetimes, GenericArg.ownTexts, lastingLifetime_cases] using ih
  have hbounds : ∀ bounds, (∀ l ∈ (boundsWithoutLifetimes bounds).flatMap Bound.ownLifetimes,
      l = staticLifetime ∨ l = "'_") ∧
      (boundsWithoutLifetimes bounds).flatMap Bound.ownTexts = bounds.flatMap Bound.ownTexts := by
    intro bounds
    induction bounds with
    | nil => exact ⟨by simp [boundsWithoutLifetimes], rfl⟩
    | cons b rest ih =>
      cases b <;> simpa [boundsWithoutLifetimes, Bound.ownLifetimes, Bound.ownTexts, lastingLifetime_cases] using ih
  cases t with
  | path p args => exact ⟨(hargs args).1, congrArg (p :: ·) (hargs args).2⟩
  | reference l isMutable inner =>
    refine ⟨fun x hx => .inl ?_, rfl⟩
    have hfilter : x ∈ l.filter (· = staticLifetime) := Option.mem_toList.mp hx
    simpa using (Option.mem_filter_iff.mp hfilter).2
  | dynamic bounds => exact hbounds bounds
  | abstract bounds => exact hbounds bounds
  | _ => exact ⟨fun _ hx => absurd hx List.not_mem_nil, rfl⟩

theorem lifetimes_withoutLifetimes (t : SigType) :
    ∀ l ∈ t.withoutLifetimes.lifetimes, l = staticLifetime ∨ l = "'_" := by
  intro l hl
  obtain ⟨part, hpart, hl⟩ := List.mem_flatMap.mp hl
  rw [parts_withoutLifetimes] at hpart
  obtain ⟨u, _, rfl⟩ := List.mem_map.mp hpart
  exact (own_withoutLifetimes u).1 l hl

theorem texts_withoutLifetimes (t : SigType) : t.withoutLifetimes.texts = t.texts := by
  rw [SigType.texts, SigType.texts, parts_withoutLifetimes, List.flatMap_map]
  exact congrArg (List.flatMap · t.parts) (funext fun u => (own_withoutLifetimes u).2)

end Naming

end TraitMock.Signature
