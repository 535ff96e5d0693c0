import TraitMock.Proofs.Generation.Recordings
import TraitMock.Proofs.Signature.Quotes

namespace TraitMock

namespace Signature

/-- Values of a type own their data, and the type can be named anywhere. -/
structure IsOwned (t : SigType) : Prop where
  named : ∀ u ∈ t.parts, u.isAbstract = false
  lasting : ∀ l ∈ t.lifetimes, l = staticLifetime
  references : ∀ l isMutable inner, SigType.reference l isMutable inner ∈ t.parts → l = some staticLifetime

theorem borrowsHere_eq_false_iff {t : SigType} : t.borrowsHere = false ↔
    (∀ l ∈ t.ownLifetimes, l = staticLifetime) ∧
      ∀ l isMutable inner, t = .reference l isMutable inner → l = some staticLifetime := by
  have hargs : ∀ args : List GenericArg, args.any GenericArg.isShortLifetime = false ↔
      ∀ l ∈ args.flatMap GenericArg.ownLifetimes, l = staticLifetime := by
    intro args
    induction args with
    | nil => simp
    | cons a rest ih => cases a <;> simp [GenericArg.isShortLifetime, GenericArg.ownLifetimes, ih]
  have hbounds : ∀ bounds : List Bound, bounds.any Bound.isShortLifetime = false ↔
      ∀ l ∈ bounds.flatMap Bound.ownLifetimes, l = staticLifetime := by
    intro bounds
    induction bounds with
    | nil => simp
    | cons b rest ih => cases b <;> simp [Bound.isShortLifetime, Bound.ownLifetimes, ih]
  cases t with
  | path p args => simp [SigType.borrowsHere, SigType.ownLifetimes, hargs]
  | reference l isMutable inner => cases l <;> simp [SigType.borrowsHere, SigType.ownLifetimes]
  | dynamic bounds => simp [SigType.borrowsHere, SigType.ownLifetimes, hbounds]
  | abstract bounds => simp [SigType.borrowsHere, SigType.ownLifetimes, hbounds]
  | _ => simp [SigType.borrowsHere, SigType.ownLifetimes]

/-- The two searches that decide how an argument is recorded look for all that keeps a type from being owned. -/
theorem isOwned_iff {t : SigType} : IsOwned t ↔ t.hasAbstract = false ∧ t.borrows = false := by
  rw [SigType.hasAbstract, SigType.borrows, any_eq_false_iff, any_eq_false_iff]
  constructor
  · intro h
    refine ⟨h.named, fun u hu => borrowsHere_eq_false_iff.mpr ⟨fun l hl => ?_, ?_⟩⟩
    · exact h.lasting l (List.mem_flatMap.mpr ⟨u, hu, hl⟩)
    · rintro l isMutable inner rfl
      exact h.references l isMutable inner hu
  · rintro ⟨hnamed, hborrows⟩
    refine ⟨hnamed, fun l hl => ?_, fun l isMutable inner hu => ?_⟩
    · obtain ⟨u, hu, hl⟩ := List.mem_flatMap.mp hl
      exact (borrowsHere_eq_false_iff.mp (hborrows u hu)).1 l hl
    · exact (borrowsHere_eq_false_iff.mp (hborrows _ hu)).2 l isMutable inner rfl

instance (t : SigType) : Decidable (IsOwned t) := decidable_of_iff _ isOwned_iff.symm

theorem not_isOwned_iff {t : SigType} : ¬IsOwned t ↔ (t.hasAbstract || t.borrows) = true := by
  rw [isOwned_iff]
  cases t.hasAbstract <;> simp

/-- The text of an owned type has the mark of a lifetime for `'static` only, or in what is kept as it is written. -/
theorem IsOwned.quotesFrom_render {t : SigType} (h : IsOwned t) :
    QuotesFrom (staticLifetime :: t.texts) (t.render .kept).toList := by
  refine Signature.quotesFrom_render t fun u hu s hs => ?_
  rcases List.mem_append.mp hs with hs | hs
  · rw [h.lasting s (List.mem_flatMap.mpr ⟨u, hu, hs⟩)]
    exact List.mem_cons_self
  · exact List.mem_cons_of_mem _ (List.mem_flatMap.mpr ⟨u, hu, hs⟩)

/-- The type by which an argument is recorded: of what is borrowed, it is the type of the value behind the reference. -/
def SigType.recorded : SigType → SigType
  | .reference _ _ inner => inner
  | t => t

/-- Nothing owned can be kept of an argument: the type by which it would be recorded is not owned, or the argument
    borrows a trait object, which has no size. -/
def Unownable (t : SigType) : Prop :=
  ¬IsOwned t.recorded ∨ t.isReference = true ∧ t.recorded.isObject = true

theorem capture_eq_opaqueMark_iff {t : SigType} : t.capture = .opaqueMark ↔ Unownable t := by
  have hwhole : t.isReference = false → (Unownable t ↔ ¬IsOwned t.recorded) := fun h => by simp [Unownable, h]
  cases t with
  | reference l isMutable inner =>
    rw [Unownable, not_isOwned_iff]
    by_cases hmark : (inner.isObject || inner.hasAbstract || inner.borrows) = true
    · simp only [SigType.capture, SigType.recorded, SigType.isReference, hmark, if_true, true_and, true_iff]
      simpa [or_assoc, or_comm] using hmark
    · simp only [SigType.capture, SigType.recorded, SigType.isReference, hmark]
      simpa [or_assoc, or_comm] using hmark
  | _ =>
    rw [hwhole rfl, not_isOwned_iff]
    simp only [SigType.capture, SigType.recorded]
    split <;> simp_all

end Signature

namespace Generation

open Signature (IsOwned QuotesFrom SigType Unownable staticLifetime)

/-- The expressions that record an argument of type `t`. -/
inductive Captures (t : SigType) : String → Prop where
  /-- A clone of an argument that owns its data. -/
  | cloned (place : String) (howned : IsOwned t) :
    Captures t ("mock::capture!(" ++ place ++ ", " ++ t.render .kept ++ ")")
  /-- A copy of what the argument borrows. -/
  | copied (place : String) {l : Option String} {isMutable : Bool} {inner : SigType}
    (ht : t = .reference l isMutable inner) (howned : IsOwned inner) :
    Captures t ("mock::capture_ref!(" ++ place ++ ", " ++ inner.render .kept ++ ")")
  /-- A mark, which names the type without lifetimes that end. -/
  | marked (h : Unownable t) : Captures t ("mock::Value::opaque(" ++ Text.quoted (t.render .elided) ++ ")")

/-- Only what cannot be kept otherwise is recorded by a mark. -/
theorem captures_recordedValue (name : String) (t : SigType) (isElement : Bool) :
    Captures t (recordedValue name t isElement) := by
  by_cases hmark : t.capture = .opaqueMark
  · rw [recordedValue]
    · exact .marked (Signature.capture_eq_opaqueMark_iff.mp hmark)
    · exact hmark
  · have howned : IsOwned t.recorded :=
      Decidable.not_not.mp fun h => hmark (Signature.capture_eq_opaqueMark_iff.mpr (.inl h))
    cases t with
    | reference l isMutable inner =>
      have hcopied : (SigType.reference l isMutable inner).capture = .owned := by
        unfold SigType.capture at hmark ⊢
        simp_all
      rw [recordedValue]
      · exact .copied _ rfl howned
      · exact hcopied
    | _ =>
      simp only [recordedValue]
      split
      · rename_i heq
        cases heq
      · contradiction
      · exact .cloned _ howned

/-- What a method records of one of its parameters, or of each element of it, is recorded by an owned type if there is
    one. -/
inductive RecordsOwned (m : Method) : Recording → Prop where
  | whole {p : Param} {value : String} (hp : p ∈ m.params) (h : Captures p.type value) :
    RecordsOwned m (.single value)
  | elements {p : Param} {t : SigType} {value : String} (hp : p ∈ m.params) (ht : Method.elementOf p.type = some t)
    (h : Captures t value) : RecordsOwned m (.each p.name value)

private theorem recordsOwned_of_mem {m : Method} {r : Recording} (hr : r ∈ (MethodBody.ofMethod m).recordings) :
    RecordsOwned m r := by
  have hrest : ∀ ps, (∀ p ∈ ps, p ∈ m.params) → (∀ p t, ps.getLast? = some p → m.variadicElement? = some t →
      Method.elementOf p.type = some t) → ∀ r ∈ Recording.ofParams m.variadicElement? ps, RecordsOwned m r := by
    intro ps
    fun_induction Recording.ofParams m.variadicElement? ps with
    | case1 => exact fun _ _ _ hr => absurd hr List.not_mem_nil
    | case2 p t helement =>
      intro hps hlast r hr
      obtain rfl := List.mem_singleton.mp hr
      exact .elements (hps p List.mem_cons_self) (hlast p t rfl helement) (captures_recordedValue _ t true)
    | case3 p helement =>
      intro hps _ r hr
      obtain rfl := List.mem_singleton.mp hr
      exact .whole (hps p List.mem_cons_self) (captures_recordedValue _ p.type false)
    | case4 p rest hmore ih =>
      intro hps hlast r hr
      rcases List.mem_cons.mp hr with rfl | hr
      · exact .whole (hps p List.mem_cons_self) (captures_recordedValue _ p.type false)
      · refine ih (fun q hq => hps q (List.mem_cons_of_mem p hq)) (fun q t hq => hlast q t ?_) r hr
        rwa [List.getLast?_cons_of_ne_nil hmore]
  refine hrest m.params (fun _ hp => hp) (fun p t hp ht => ?_) r hr
  unfold Method.variadicElement? at ht
  split at ht
  · rw [hp] at ht
    exact ht
  · cases ht

/-- The lifetimes of a type do not leave the trait. Without those that end, the type is written as the type from which
    they are taken away, and names only lifetimes that are known everywhere. -/
structure StaysNameable (t : SigType) : Prop where
  written : t.render .elided = t.withoutLifetimes.render .kept
  lifetimes : ∀ l ∈ t.withoutLifetimes.lifetimes, l = staticLifetime ∨ l = "'_"
  quotes : QuotesFrom (staticLifetime :: "'_" :: t.texts) (t.render .elided).toList

/-- No lifetime of a signature goes where it ends too early: not into the types of functions that mocks are given, and
    not into what is recorded. -/
theorem signatures_outlive_calls :
    (∀ t : SigType, StaysNameable t) ∧
      (∀ (name : String) (t : SigType) (isElement : Bool), Captures t (recordedValue name t isElement)) ∧
      (∀ (m : Method), ∀ r ∈ (MethodBody.ofMethod m).recordings, RecordsOwned m r) ∧
      ∀ t : SigType, IsOwned t → QuotesFrom (staticLifetime :: t.texts) (t.render .kept).toList := by
  refine ⟨fun t => ⟨?_, ?_, ?_⟩, captures_recordedValue, fun m r => recordsOwned_of_mem, fun t => ?_⟩
  · exact Signature.render_elided t
  · exact Signature.lifetimes_withoutLifetimes t
  · exact Signature.quotesFrom_render_elided t
  · exact IsOwned.quotesFrom_render

end Generation

end TraitMock
