import Mathlib.Data.List.Forall2
import TraitMock.Interface.Expansion
import TraitMock.Proofs.Naming.Mirroring

namespace TraitMock

open Modules (Scope)
open Signature
open Syntax (Member MethodDecl ParamDecl ParamPattern PathText TypeExpr)

namespace Method

/-- Parameters that are read behind others mirror those that are declared. The one that the method is called by is
    kept as it is written, also where it has a type. -/
inductive MirrorsParams (R : PathText → String → Prop) : Params → List ParamDecl → Params → Prop where
  | nil (ps : Params) : MirrorsParams R ps [] ps
  | receiver {ps ps' : Params} {rest : List ParamDecl} (text : String)
    (hrest : MirrorsParams R { ps with receiver := some text } rest ps') :
    MirrorsParams R ps (.receiver text :: rest) ps'
  | typedReceiver {ps ps' : Params} {rest : List ParamDecl} {pattern : ParamPattern} (t : TypeExpr) (text : String)
    (hself : (isSelf pattern && ps.receiver.isNone && ps.others.isEmpty) = true)
    (hrest : MirrorsParams R { ps with receiver := some text } rest ps') :
    MirrorsParams R ps (.typed pattern t text :: rest) ps'
  | typed {ps ps' : Params} {rest : List ParamDecl} {pattern : ParamPattern} {t : TypeExpr} {t' : SigType}
    (text : String) (hself : ¬(isSelf pattern && ps.receiver.isNone && ps.others.isEmpty) = true)
    (htype : Mirrors R t t') (hrest : MirrorsParams R (ps.add (nameOf pattern) t') rest ps') :
    MirrorsParams R ps (.typed pattern t text :: rest) ps'
  | bare {ps ps' : Params} {rest : List ParamDecl} {t : TypeExpr} {t' : SigType} (htype : Mirrors R t t')
    (hrest : MirrorsParams R (ps.add none t') rest ps') : MirrorsParams R ps (.bare t :: rest) ps'

/-- The type of a result mirrors the one that is declared. The empty tuple is left out. -/
inductive MirrorsReturn (R : PathText → String → Prop) : Option TypeExpr → Option SigType → Prop where
  | none : MirrorsReturn R none none
  | unit {t : TypeExpr} {t' : SigType} (htype : Mirrors R t t') (hunit : t'.isUnit = true) :
    MirrorsReturn R (some t) none
  | some {t : TypeExpr} {t' : SigType} (htype : Mirrors R t t') : MirrorsReturn R (some t) (some t')

/-- A method mirrors a declaration: the paths in the types of its parameters and of its result are related by `R`, and
    its other parts are those that are written. -/
structure MirrorsDecl (R : PathText → String → Prop) (d : MethodDecl) (m : Method) : Prop where
  name : m.name = d.name
  modifiers : m.modifiers = d.modifiers
  lifetimes : m.lifetimes = d.generics.map (·.text)
  params : ∃ ps, MirrorsParams R {} d.params ps ∧ ps.receiver = some m.receiver ∧ ps.others = m.params
  result : MirrorsReturn R d.result m.result
  whereClause : m.whereClause = d.whereClause

section

variable {ok : List Import → Prop} {R : List Import → PathText → String → Prop} {s : Scope} {dst : Package}

theorem yields_lowerParams (hpath : ∀ p, Yields ok (lowerPathText s dst p) fun imports text => R imports p text)
    (label : String) (ps : Params) (decls : List ParamDecl) :
    Yields ok (lowerParams s dst label ps decls) fun imports ps' => MirrorsParams (R imports) ps decls ps' := by
  induction decls generalizing ps with
  | nil => exact yields_pure fun _ _ => .nil ps
  | cons decl rest ih =>
    cases decl with
    | receiver text => exact (ih _).mono fun _ _ _ h => .receiver text h
    | variadic => exact yields_refuse
    | typed pattern t text =>
      rw [lowerParams]
      split
      · rename_i hself
        exact (ih _).mono fun _ _ _ h => .typedReceiver t text hself h
      · rename_i hself
        refine (mirrored_lower hpath t).asType.bind fun t' => ?_
        exact (ih _).mono fun _ _ _ hrest htype => .typed text hself htype hrest
    | bare t =>
      refine (mirrored_lower hpath t).asType.bind fun t' => ?_
      exact (ih _).mono fun _ _ _ hrest htype => .bare htype hrest

theorem yields_lowerResult (hpath : ∀ p, Yields ok (lowerPathText s dst p) fun imports text => R imports p text)
    (label : String) (result : Option TypeExpr) :
    Yields ok (lowerResult s dst label result) fun imports result' => MirrorsReturn (R imports) result result' := by
  cases result with
  | none => exact yields_pure fun _ _ => .none
  | some t =>
    refine (mirrored_lower hpath t).asType.bind fun t' => ?_
    split
    · exact yields_refuse
    · refine yields_pure fun _ _ htype => ?_
      split
      · rename_i hunit
        exact .unit htype hunit
      · exact .some htype

/-- Lowering mirrors a method when it does so for its paths. -/
theorem yields_lower (hpath : ∀ p, Yields ok (lowerPathText s dst p) fun imports text => R imports p text)
    (variadicSlices : Bool) (traitPath : String) (d : MethodDecl) :
    Yields ok (lower s dst variadicSlices traitPath d) fun imports m => MirrorsDecl (R imports) d m := by
  unfold lower
  dsimp only
  split
  · exact yields_refuse
  · split
    · exact yields_refuse
    · refine (yields_lowerParams hpath _ {} d.params).bind fun ps => ?_
      split
      · exact yields_refuse
      · rename_i receiver hreceiver
        refine (yields_lowerResult hpath _ d.result).bind fun result => yields_pure fun imports _ hresult hparams => ?_
        exact ⟨rfl, rfl, rfl, ⟨ps, hparams, hreceiver, rfl⟩, hresult, rfl⟩

end

/-- A method is what a declaration is lowered to, and the imports that this gathers are among some others. -/
def LoweredFrom (s : Scope) (dst : Package) (variadicSlices : Bool) (traitPath : String) (imports : List Import)
    (d : MethodDecl) (m : Method) : Prop :=
  ∃ before after, (lower s dst variadicSlices traitPath d).run.run before = (.ok m, after) ∧
    ∀ i ∈ after.toList, i ∈ imports

theorem LoweredFrom.mirrors {s : Scope} {dst : Package} {variadicSlices : Bool} {traitPath : String}
    {imports : List Import} {d : MethodDecl} {m : Method} {R : List Import → PathText → String → Prop}
    (h : LoweredFrom s dst variadicSlices traitPath imports d m)
    (hpath : ∀ p, Yields (fun _ => True) (lowerPathText s dst p) fun imports text => R imports p text) :
    MirrorsDecl (R imports) d m := by
  obtain ⟨before, after, hrun, hsub⟩ := h
  obtain ⟨_, hmirrors⟩ := yields_lower hpath variadicSlices traitPath d before m after hrun
  exact hmirrors imports trivial hsub

section Read

variable {ok : List Import → Prop} {R : List Import → PathText → String → Prop} {s : Scope} {dst : Package}

/-- The result of a method that is read is not the empty tuple. -/
theorem yields_isUnit_lowerResult
    (hpath : ∀ p, Yields ok (lowerPathText s dst p) fun imports text => R imports p text) (label : String)
    (result : Option TypeExpr) :
    Yields ok (lowerResult s dst label result) fun _ result' => ∀ t, result' = some t → t.isUnit = false := by
  cases result with
  | none => exact yields_pure fun _ _ t h => by cases h
  | some t =>
    refine (mirrored_lower hpath t).asType.bind fun t' => ?_
    split
    · exact yields_refuse
    · refine yields_pure fun _ _ _ t h => ?_
      split at h
      · cases h
      · rename_i hunit
        obtain rfl : t' = t := Option.some.inj h
        simpa using hunit

/-- What a method is, whatever declaration it is read from. -/
structure IsRead (variadicSlices : Bool) (m : Method) : Prop where
  isVariadic : m.isVariadic = (variadicSlices && endsInSlice m.params)
  result : ∀ t, m.result = some t → t.isUnit = false

private theorem yields_isRead (hpath : ∀ p, Yields ok (lowerPathText s dst p) fun imports text => R imports p text)
    (variadicSlices : Bool) (traitPath : String) (d : MethodDecl) :
    Yields ok (lower s dst variadicSlices traitPath d) fun _ m => IsRead variadicSlices m := by
  unfold lower
  dsimp only
  split
  · exact yields_refuse
  · split
    · exact yields_refuse
    · refine (yields_lowerParams hpath _ {} d.params).bind fun ps => ?_
      split
      · exact yields_refuse
      · refine (yields_isUnit_lowerResult hpath _ d.result).bind fun result => yields_pure fun _ _ hresult _ => ?_
        exact ⟨rfl, hresult⟩

theorem LoweredFrom.isRead {variadicSlices : Bool} {traitPath : String} {imports : List Import} {d : MethodDecl}
    {m : Method} {R : List Import → PathText → String → Prop}
    (h : LoweredFrom s dst variadicSlices traitPath imports d m)
    (hpath : ∀ p, Yields (fun _ => True) (lowerPathText s dst p) fun imports text => R imports p text) :
    IsRead variadicSlices m := by
  obtain ⟨before, after, hrun, hsub⟩ := h
  obtain ⟨_, hread⟩ := yields_isRead hpath variadicSlices traitPath d before m after hrun
  exact hread imports trivial hsub

end Read

end Method

namespace Walking

/-- The declaration of a member that is a method. -/
def declared? : Member → Option MethodDecl
  | .method d => some d
  | _ => none

/-- Whether a mock can leave a member out. -/
def IsBlank : Member → Prop
  | .blank => True
  | _ => False

/-- The methods of a trait are what its declarations are lowered to, in their order; it has no other members. -/
theorem yields_methodsOf {ok : List Import → Prop} {s : Scope} {dst : Package} {variadicSlices : Bool}
    {R : List Import → PathText → String → Prop}
    (hpath : ∀ p, Yields ok (lowerPathText s dst p) fun imports text => R imports p text) (name path : String)
    (members : List Member) :
    Yields ok (methodsOf s dst variadicSlices name path members) fun imports methods =>
      (∀ m ∈ members, IsBlank m ∨ (declared? m).isSome) ∧
        List.Forall₂ (Method.LoweredFrom s dst variadicSlices path imports) (members.filterMap declared?) methods := by
  induction members with
  | nil => exact yields_pure fun _ _ => ⟨fun _ h => absurd h List.not_mem_nil, .nil⟩
  | cons member rest ih =>
    cases member with
    | blank =>
      refine ih.mono fun imports methods _ ⟨hmembers, hmethods⟩ => ⟨fun m hm => ?_, hmethods⟩
      rcases List.mem_cons.mp hm with rfl | hm
      · exact .inl trivial
      · exact hmembers m hm
    | method d =>
      refine (Method.yields_lower hpath variadicSlices path d).traced.bind fun m => ?_
      refine ih.map fun imports methods _ ⟨hmembers, hmethods⟩ hlowered => ⟨fun m hm => ?_, .cons hlowered hmethods⟩
      rcases List.mem_cons.mp hm with rfl | hm
      · exact .inr rfl
      · exact hmembers m hm
    | associatedType => exact yields_refuse
    | associatedConst => exact yields_refuse
    | other kind => exact yields_refuse

end Walking

end TraitMock
