import TraitMock.Signature.Type

namespace TraitMock.Signature

mutual

/-- A type with all types inside it, at any depth. -/
def SigType.parts (t : SigType) : List SigType :=
  t :: match t with
    | .path _ args => partsOfArgs args
    | .reference _ _ inner => inner.parts
    | .pointer _ inner => inner.parts
    | .array element _ => element.parts
    | .slice element => element.parts
    | .tuple elements => partsOfTypes elements
    | .parenthesized inner => inner.parts
    | .dynamic bounds => partsOfBounds bounds
    | .abstract bounds => partsOfBounds bounds
    | .function _ params result => partsOfTypes params ++ partsOfResult result
    | .never => []

def partsOfTypes : List SigType → List SigType
  | [] => []
  | t :: rest => t.parts ++ partsOfTypes rest

def partsOfResult : Option SigType → List SigType
  | none => []
  | some t => t.parts

def partsOfArgs : List GenericArg → List SigType
  | [] => []
  | .type t :: rest => t.parts ++ partsOfArgs rest
  | .binding _ t :: rest => t.parts ++ partsOfArgs rest
  | .lifetime _ :: rest => partsOfArgs rest
  | .const _ :: rest => partsOfArgs rest

def partsOfBounds : List Bound → List SigType
  | [] => []
  | .trait _ _ t :: rest => t.parts ++ partsOfBounds rest
  | .lifetime _ :: rest => partsOfBounds rest

end

theorem mem_parts (t : SigType) : t ∈ t.parts := by
  cases t <;> simp [SigType.parts]

theorem parts_subset_tuple {t : SigType} {elements : List SigType} (h : t ∈ elements) :
    t.parts ⊆ (SigType.tuple elements).parts := by
  have helements : t.parts ⊆ partsOfTypes elements := by
    induction elements with
    | nil => cases h
    | cons first rest ih =>
      rw [partsOfTypes]
      rcases List.mem_cons.mp h with rfl | hrest
      · exact List.subset_append_left _ _
      · exact List.subset_append_of_subset_right _ (ih hrest)
  intro u hu
  rw [SigType.parts]
  exact List.mem_cons_of_mem _ (helements hu)

/-- The lifetime that a generic argument is. -/
def GenericArg.ownLifetimes : GenericArg → List String
  | .lifetime l => [l]
  | _ => []

/-- The lifetime that a bound is. The lifetimes that a trait is quantified over are not named but bound. -/
def Bound.ownLifetimes : Bound → List String
  | .lifetime l => [l]
  | .trait .. => []

/-- The texts of a generic argument that are kept as they are written. -/
def GenericArg.ownTexts : GenericArg → List String
  | .binding name _ => [name]
  | .const text => [text]
  | _ => []

/-- The quantified lifetimes of a bound, as they are written. -/
def Bound.ownTexts : Bound → List String
  | .trait binder _ _ => binder.toList
  | .lifetime _ => []

namespace SigType

/-- The lifetimes that a type names, apart from those that are named inside it. -/
def ownLifetimes : SigType → List String
  | .reference l _ _ => l.toList
  | .path _ args => args.flatMap GenericArg.ownLifetimes
  | .dynamic bounds => bounds.flatMap Bound.ownLifetimes
  | .abstract bounds => bounds.flatMap Bound.ownLifetimes
  | _ => []

/-- The lifetimes that are named anywhere in a type. -/
def lifetimes (t : SigType) : List String := t.parts.flatMap ownLifetimes

/-- The texts of a type that are kept as they are written, apart from those inside it: paths, lengths, constants, what
    stands in front of parameters, and the lifetimes that bounds are quantified over. -/
def ownTexts : SigType → List String
  | .path p args => p :: args.flatMap GenericArg.ownTexts
  | .array _ length => [length]
  | .dynamic bounds => bounds.flatMap Bound.ownTexts
  | .abstract bounds => bounds.flatMap Bound.ownTexts
  | .function head _ _ => [head]
  | _ => []

/-- The texts that are kept as they are written anywhere in a type. -/
def texts (t : SigType) : List String := t.parts.flatMap ownTexts

end SigType

section Searching

variable (p : SigType → Bool)

mutual

/-- Searching a type is searching its parts. -/
theorem any_eq_any_parts : (t : SigType) → t.any p = t.parts.any p
  | .path _ args => by rw [SigType.any, SigType.parts, List.any_cons, anyArg_eq_any_parts args]
  | .reference _ _ inner => by rw [SigType.any, SigType.parts, List.any_cons, any_eq_any_parts inner]
  | .pointer _ inner => by rw [SigType.any, SigType.parts, List.any_cons, any_eq_any_parts inner]
  | .array element _ => by rw [SigType.any, SigType.parts, List.any_cons, any_eq_any_parts element]
  | .slice element => by rw [SigType.any, SigType.parts, List.any_cons, any_eq_any_parts element]
  | .tuple elements => by rw [SigType.any, SigType.parts, List.any_cons, anyType_eq_any_parts elements]
  | .parenthesized inner => by rw [SigType.any, SigType.parts, List.any_cons, any_eq_any_parts inner]
  | .dynamic bounds => by rw [SigType.any, SigType.parts, List.any_cons, anyBound_eq_any_parts bounds]
  | .abstract bounds => by rw [SigType.any, SigType.parts, List.any_cons, anyBound_eq_any_parts bounds]
  | .function _ params result => by
    rw [SigType.any, SigType.parts, List.any_cons, List.any_append, anyType_eq_any_parts params,
      anyResult_eq_any_parts result]
  | .never => by rw [SigType.any, SigType.parts, List.any_cons, List.any_nil]

theorem anyType_eq_any_parts : (ts : List SigType) → anyType p ts = (partsOfTypes ts).any p
  | [] => rfl
  | t :: rest => by rw [anyType, partsOfTypes, List.any_append, any_eq_any_parts t, anyType_eq_any_parts rest]

theorem anyResult_eq_any_parts : (result : Option SigType) → anyResult p result = (partsOfResult result).any p
  | none => rfl
  | some t => by rw [anyResult, partsOfResult, any_eq_any_parts t]

theorem anyArg_eq_any_parts : (args : List GenericArg) → anyArg p args = (partsOfArgs args).any p
  | [] => rfl
  | .type t :: rest => by rw [anyArg, partsOfArgs, List.any_append, any_eq_any_parts t, anyArg_eq_any_parts rest]
  | .binding _ t :: rest => by rw [anyArg, partsOfArgs, List.any_append, any_eq_any_parts t, anyArg_eq_any_parts rest]
  | .lifetime _ :: rest => by rw [anyArg, partsOfArgs, anyArg_eq_any_parts rest]
  | .const _ :: rest => by rw [anyArg, partsOfArgs, anyArg_eq_any_parts rest]

theorem anyBound_eq_any_parts : (bounds : List Bound) → anyBound p bounds = (partsOfBounds bounds).any p
  | [] => rfl
  | .trait _ _ t :: rest => by
    rw [anyBound, partsOfBounds, List.any_append, any_eq_any_parts t, anyBound_eq_any_parts rest]
  | .lifetime _ :: rest => by rw [anyBound, partsOfBounds, anyBound_eq_any_parts rest]

end

theorem any_eq_false_iff {t : SigType} : t.any p = false ↔ ∀ u ∈ t.parts, p u = false := by
  rw [any_eq_any_parts, List.any_eq_false]
  simp only [Bool.not_eq_true]

end Searching

end TraitMock.Signature
