import TraitMock.Signature.Lowering

namespace TraitMock.ImportSet

private theorem mem_insertInto {i j : Import} {l : List Import} : j ∈ insertInto i l ↔ j = i ∨ j ∈ l := by
  induction l with
  | nil => simp [insertInto]
  | cons k rest ih =>
    rw [insertInto]
    split
    · rename_i heq
      subst heq
      simp
    · split
      · simp
      · rw [List.mem_cons, ih, List.mem_cons]
        constructor
        · rintro (h | h | h)
          · exact .inr (.inl h)
          · exact .inl h
          · exact .inr (.inr h)
        · rintro (h | h | h)
          · exact .inr (.inl h)
          · exact .inl h
          · exact .inr (.inr h)

theorem mem_insert {s : ImportSet} {i j : Import} : j ∈ (s.insert i).toList ↔ j = i ∨ j ∈ s.toList :=
  mem_insertInto

end TraitMock.ImportSet

namespace TraitMock.Signature

variable {α β : Type} {ok : List Import → Prop}

/-- When a part of lowering gives something, the imports so far are kept, and what it gives is right for all imports
    of which `ok` holds and among which those are that were gathered. -/
def Yields (ok : List Import → Prop) (l : Lowering α) (post : List Import → α → Prop) : Prop :=
  ∀ before a after, l.run.run before = (.ok a, after) →
    (∀ i ∈ before.toList, i ∈ after.toList) ∧
      ∀ imports, ok imports → (∀ i ∈ after.toList, i ∈ imports) → post imports a

theorem yields_pure {a : α} {post : List Import → α → Prop} (h : ∀ imports, ok imports → post imports a) :
    Yields ok (pure a) post := by
  intro before b after hrun
  obtain ⟨rfl, rfl⟩ : a = b ∧ before = after := by
    have heq : ((.ok a : Except GenerationError α), before) = (.ok b, after) := hrun
    simpa using heq
  exact ⟨fun _ hi => hi, fun imports hok _ => h imports hok⟩

theorem yields_throw {e : GenerationError} {post : List Import → α → Prop} :
    Yields ok (throw e : Lowering α) post := by
  intro before b after hrun
  have heq : ((.error e : Except GenerationError α), before) = (.ok b, after) := hrun
  simp at heq

theorem yields_refuse {what : String} {post : List Import → α → Prop} : Yields ok (refuse what : Lowering α) post :=
  yields_throw

theorem yields_need (i : Import) : Yields ok (need i) fun imports _ => i ∈ imports := by
  intro before b after hrun
  obtain rfl : before.insert i = after := by
    have heq : ((.ok () : Except GenerationError Unit), before.insert i) = (.ok b, after) := hrun
    simpa using heq
  refine ⟨fun j hj => ImportSet.mem_insert.mpr (.inr hj), fun imports _ hsub => ?_⟩
  exact hsub i (ImportSet.mem_insert.mpr (.inl rfl))

theorem Yields.bind {l : Lowering α} {f : α → Lowering β} {P : List Import → α → Prop}
    {Q : List Import → β → Prop} (hl : Yields ok l P)
    (hf : ∀ a, Yields ok (f a) fun imports b => P imports a → Q imports b) : Yields ok (l >>= f) Q := by
  intro before b after hrun
  have hbind : (l >>= f).run.run before = (ExceptT.bindCont f (l.run.run before).1).run (l.run.run before).2 := rfl
  rw [hbind] at hrun
  rcases hfirst : l.run.run before with ⟨result, mid⟩
  rw [hfirst] at hrun
  cases result with
  | error e =>
    have herror : ((.error e : Except GenerationError β), mid) = (.ok b, after) := hrun
    simp at herror
  | ok a =>
    obtain ⟨hkept, hpost⟩ := hl before a mid hfirst
    obtain ⟨hkept', hpost'⟩ := hf a mid b after hrun
    refine ⟨fun i hi => hkept' i (hkept i hi), fun imports hok hsub => ?_⟩
    exact hpost' imports hok hsub (hpost imports hok fun i hi => hsub i (hkept' i hi))

theorem Yields.mono {l : Lowering α} {P Q : List Import → α → Prop} (hl : Yields ok l P)
    (h : ∀ imports a, ok imports → P imports a → Q imports a) : Yields ok l Q := by
  intro before a after hrun
  obtain ⟨hkept, hpost⟩ := hl before a after hrun
  exact ⟨hkept, fun imports hok hsub => h imports a hok (hpost imports hok hsub)⟩

/-- What is given was given by a run of which the imports are among those that are gathered in the end. -/
theorem Yields.traced {l : Lowering α} {P : List Import → α → Prop} (hl : Yields ok l P) :
    Yields ok l fun imports a => ∃ before after, l.run.run before = (.ok a, after) ∧ ∀ i ∈ after.toList, i ∈ imports :=
  fun before a after hrun => ⟨(hl before a after hrun).1, fun _ _ hsub => ⟨before, after, hrun, hsub⟩⟩

theorem Yields.map {l : Lowering α} {f : α → β} {P : List Import → α → Prop} {Q : List Import → β → Prop}
    (hl : Yields ok l P) (h : ∀ imports a, ok imports → P imports a → Q imports (f a)) : Yields ok (f <$> l) Q := by
  rw [map_eq_pure_bind]
  exact hl.bind fun a => yields_pure fun imports hok => h imports a hok

/-- What follows an import that is needed may rely on it. -/
theorem yields_of_need {i : Import} {a : α} {post : List Import → α → Prop}
    (h : ∀ imports, ok imports → i ∈ imports → post imports a) : Yields ok (do need i; pure a) post :=
  (yields_need i).bind fun _ => yields_pure h

end TraitMock.Signature
