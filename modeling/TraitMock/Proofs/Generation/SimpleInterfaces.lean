import TraitMock.Proofs.Generation.Mocks

namespace TraitMock

namespace Signature

open Syntax (IsLifetime)

/-- A generic argument that is a type or a lifetime. -/
def GenericArg.isSimple : GenericArg → Bool
  | .type _ => true
  | .lifetime l => decide (IsLifetime l)
  | _ => false

private theorem GenericArg.isSound_of_isSimple {a : GenericArg} (h : a.isSimple = true) : a.IsSound := by
  cases a with
  | type _ => trivial
  | lifetime l => exact of_decide_eq_true (p := IsLifetime l) h
  | binding | const => cases h

namespace SigType

/-- Whether a type is the name of one, or is made of other types by marks and lifetimes alone. -/
def isSimpleHere : SigType → Bool
  | .path p args => decide (IsPathText p) && args.all GenericArg.isSimple
  | .reference l _ inner => decide (∀ x ∈ l, IsLifetime x) && !(inner.isDynamic || inner.isAbstract)
  | .pointer _ inner => !(inner.isDynamic || inner.isAbstract)
  | .slice _ | .tuple _ | .parenthesized _ | .never => true
  | _ => false

/-- Whether a type is made of names by marks and lifetimes alone. -/
def isSimple (t : SigType) : Bool := !t.any (!·.isSimpleHere)

variable {t : SigType}

theorem not_isSum (h : (!(t.isDynamic || t.isAbstract)) = true) : ¬t.IsSum := by
  cases t <;> simp_all [isDynamic, isAbstract, IsSum]

private theorem isSound_of_isSimpleHere (h : t.isSimpleHere = true) : t.IsSound := by
  cases t with
  | path p args =>
    obtain ⟨hpath, hargs⟩ := Bool.and_eq_true_iff.mp h
    exact ⟨of_decide_eq_true hpath, fun a ha => GenericArg.isSound_of_isSimple (List.all_eq_true.mp hargs a ha)⟩
  | reference l _ inner =>
    obtain ⟨hlifetime, hinner⟩ := Bool.and_eq_true_iff.mp h
    exact ⟨of_decide_eq_true hlifetime, not_isSum hinner⟩
  | pointer _ inner => exact not_isSum h
  | slice | tuple | parenthesized | never => trivial
  | array | dynamic | abstract | function => cases h

theorem isWritten_of_isSimple (h : t.isSimple = true) : t.IsWritten := by
  have hparts := (any_eq_false_iff _).mp (by simpa [isSimple] using h)
  exact fun u hu => isSound_of_isSimpleHere (by simpa using hparts u hu)

end SigType

end Signature

namespace Generation

open Signature (IsPathText SigType)
open Syntax (IsWord spells_literal)
open Syntax.Reader

/-- A method that is called by a shared reference, without words, lifetimes or clauses of its own, and with simple
    types. -/
structure Method.IsSimple (m : Method) : Prop where
  name : IsWord m.name
  modifiers : m.modifiers = none
  lifetimes : m.lifetimes = none
  receiver : m.receiver = "&self"
  params : ∀ p ∈ m.params, IsName p.name ∧ p.type.isSimple = true
  result : ∀ t ∈ m.result, t.isSimple = true ∧ t.hasAbstract = false
  whereClause : m.whereClause = none

instance : DecidablePred Method.IsSimple := fun m =>
  decidable_of_iff (IsWord m.name ∧ m.modifiers = none ∧ m.lifetimes = none ∧ m.receiver = "&self" ∧
      (∀ p ∈ m.params, IsName p.name ∧ p.type.isSimple = true) ∧
      (∀ t ∈ m.result, t.isSimple = true ∧ t.hasAbstract = false) ∧ m.whereClause = none)
    ⟨fun ⟨hname, hmodifiers, hlifetimes, hreceiver, hparams, hresult, hclause⟩ =>
        ⟨hname, hmodifiers, hlifetimes, hreceiver, hparams, hresult, hclause⟩,
      fun h => ⟨h.name, h.modifiers, h.lifetimes, h.receiver, h.params, h.result, h.whereClause⟩⟩

theorem Method.isWritten_of_isSimple {m : Method} (h : Method.IsSimple m) : Method.IsWritten m where
  name := h.name
  modifiers := ⟨[], by rw [h.modifiers]; exact .of_isGap Syntax.isGap_nil, by simp⟩
  lifetimes text htext := by simp [h.lifetimes] at htext
  receiver := ⟨[.mark "&", .word "self"], by rw [h.receiver]; exact spells_literal (by decide), takes_param_self⟩
  params p hp := ⟨(h.params p hp).1, SigType.isWritten_of_isSimple (h.params p hp).2⟩
  result t ht := ⟨SigType.isWritten_of_isSimple (h.result t ht).1, (h.result t ht).2⟩
  whereClause := ⟨[], by rw [h.whereClause]; exact .of_isGap Syntax.isGap_nil, .nil⟩

/-- An interface of simple methods, without attributes. That it is one is seen by looking at it. -/
structure Interface.IsSimple (i : Interface) : Prop where
  name : IsWord i.name
  traits : ∀ t ∈ i.traits, IsPathText t.path ∧ t.asyncMark = none ∧ ∀ m ∈ t.methods, Method.IsSimple m

instance : DecidablePred Interface.IsSimple := fun i =>
  decidable_of_iff (IsWord i.name ∧
      ∀ t ∈ i.traits, IsPathText t.path ∧ t.asyncMark = none ∧ ∀ m ∈ t.methods, Method.IsSimple m)
    ⟨fun ⟨hname, htraits⟩ => ⟨hname, htraits⟩, fun h => ⟨h.name, h.traits⟩⟩

theorem Interface.isWritten_of_isSimple {i : Interface} (h : Interface.IsSimple i) : Interface.IsWritten i where
  name := h.name
  traits t ht := by
    obtain ⟨hpath, hmark, hmethods⟩ := h.traits t ht
    exact ⟨hpath, by simp [hmark], fun m hm => Method.isWritten_of_isSimple (hmethods m hm)⟩

end Generation

end TraitMock
