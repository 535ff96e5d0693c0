import TraitMock.Proofs.Naming.Gathering

namespace TraitMock.Signature

open Modules (Scope)
open Syntax (FunctionHead FunctionParam GenericExpr PathText TypeExpr)

/-- What stands in front of the parameters of a function type is the same up to the path of a trait. -/
inductive MirrorsHead (R : PathText → String → Prop) : FunctionHead → String → Prop where
  | keyword (text : String) : MirrorsHead R (.keyword text) text
  | trait {path : PathText} {text : String} (h : R path text) : MirrorsHead R (.trait none path) text
  | quantified (binder : String) {path : PathText} {text : String} (h : R path text) :
    MirrorsHead R (.trait (some binder) path) (binder ++ " " ++ text)

mutual

/-- A lowered type mirrors a type expression, with paths that are related by `R`. -/
inductive Mirrors (R : PathText → String → Prop) : TypeExpr → SigType → Prop where
  | primitive (name : String) : Mirrors R (.primitive name) (.named name)
  | named {path : PathText} {text : String} (h : R path text) : Mirrors R (.named path) (.named text)
  | generic {base : PathText} {text : String} {args : List GenericExpr} {args' : List GenericArg} (h : R base text)
    (hargs : MirrorsArgs R args args') : Mirrors R (.generic base args) (.path text args')
  | reference (lifetime : Option String) (isMutable : Bool) {t : TypeExpr} {t' : SigType} (h : Mirrors R t t') :
    Mirrors R (.reference lifetime isMutable t) (.reference lifetime isMutable t')
  | pointer (isMutable : Bool) {t : TypeExpr} {t' : SigType} (h : Mirrors R t t') :
    Mirrors R (.pointer isMutable t) (.pointer isMutable t')
  | array (length : String) {t : TypeExpr} {t' : SigType} (h : Mirrors R t t') :
    Mirrors R (.array t length) (.array t' length)
  | slice {t : TypeExpr} {t' : SigType} (h : Mirrors R t t') : Mirrors R (.slice t) (.slice t')
  | tuple {ts : List TypeExpr} {ts' : List SigType} (h : MirrorsTypes R ts ts') : Mirrors R (.tuple ts) (.tuple ts')
  | parenthesized {t : TypeExpr} {t' : SigType} (h : Mirrors R t t') :
    Mirrors R (.parenthesized t) (.parenthesized t')
  | never : Mirrors R .never .never
  | dynamic {t : TypeExpr} {bounds : List Bound} (h : MirrorsBounds R t bounds) :
    Mirrors R (.dynamic t) ((if joinsAbstract t then SigType.abstract else SigType.dynamic) bounds)
  | abstract {t : TypeExpr} {bounds : List Bound} (h : MirrorsBounds R t bounds) :
    Mirrors R (.abstract t) (.abstract bounds)
  | sum {l r : TypeExpr} {front back : List Bound} (hl : MirrorsBounds R l front) (hr : MirrorsBounds R r back) :
    Mirrors R (.sum l r)
      ((if joinsAbstract l || joinsAbstract r then SigType.abstract else SigType.dynamic) (front ++ back))
  | function {head : FunctionHead} {head' : String} {params : List FunctionParam} {params' : List SigType}
    {result : Option TypeExpr} {result' : Option SigType} (text : String) (h : MirrorsHead R head head')
    (hparams : MirrorsParams R params params') (hresult : MirrorsResult R result result') :
    Mirrors R (.function head params result text) (.function head' params' result')

/-- Bounds that are joined mirror a type expression that stands for them. -/
inductive MirrorsBounds (R : PathText → String → Prop) : TypeExpr → List Bound → Prop where
  | type {t : TypeExpr} {t' : SigType} (h : Mirrors R t t') : MirrorsBounds R t [.trait none false t']
  | dynamic {t : TypeExpr} {bounds : List Bound} (h : MirrorsBounds R t bounds) : MirrorsBounds R (.dynamic t) bounds
  | abstract {t : TypeExpr} {bounds : List Bound} (h : MirrorsBounds R t bounds) :
    MirrorsBounds R (.abstract t) bounds
  | sum {l r : TypeExpr} {front back : List Bound} (hl : MirrorsBounds R l front) (hr : MirrorsBounds R r back) :
    MirrorsBounds R (.sum l r) (front ++ back)
  | lifetime (name : String) : MirrorsBounds R (.lifetime name) [.lifetime name]
  | relaxed (text : String) {t : TypeExpr} {t' : SigType} (h : Mirrors R t t') :
    MirrorsBounds R (.relaxed t text) [.trait none true t']
  | quantified (params : String) {t : TypeExpr} {t' : SigType} (h : Mirrors R t t') :
    MirrorsBounds R (.quantified params t) [.trait (some ("for" ++ params)) false t']

inductive MirrorsTypes (R : PathText → String → Prop) : List TypeExpr → List SigType → Prop where
  | nil : MirrorsTypes R [] []
  | cons {t : TypeExpr} {t' : SigType} {ts : List TypeExpr} {ts' : List SigType} (h : Mirrors R t t')
    (hrest : MirrorsTypes R ts ts') : MirrorsTypes R (t :: ts) (t' :: ts')

inductive MirrorsResult (R : PathText → String → Prop) : Option TypeExpr → Option SigType → Prop where
  | none : MirrorsResult R none none
  | some {t : TypeExpr} {t' : SigType} (h : Mirrors R t t') : MirrorsResult R (some t) (some t')

inductive MirrorsParams (R : PathText → String → Prop) : List FunctionParam → List SigType → Prop where
  | nil : MirrorsParams R [] []
  | cons {t : TypeExpr} {t' : SigType} {ps : List FunctionParam} {ts' : List SigType} (h : Mirrors R t t')
    (hrest : MirrorsParams R ps ts') : MirrorsParams R (.typed t :: ps) (t' :: ts')

inductive MirrorsArg (R : PathText → String → Prop) : GenericExpr → GenericArg → Prop where
  | type {t : TypeExpr} {t' : SigType} (h : Mirrors R t t') : MirrorsArg R (.type t) (.type t')
  | lifetime (name : String) : MirrorsArg R (.lifetime name) (.lifetime name)
  | binding (name : String) {t : TypeExpr} {t' : SigType} (h : Mirrors R t t') :
    MirrorsArg R (.binding name t) (.binding name t')
  | const (text : String) : MirrorsArg R (.const text) (.const text)

inductive MirrorsArgs (R : PathText → String → Prop) : List GenericExpr → List GenericArg → Prop where
  | nil : MirrorsArgs R [] []
  | cons {a : GenericExpr} {a' : GenericArg} {args : List GenericExpr} {args' : List GenericArg}
    (h : MirrorsArg R a a') (hrest : MirrorsArgs R args args') : MirrorsArgs R (a :: args) (a' :: args')

end

/-- What a type expression gives mirrors it, as a type and among bounds. -/
structure Mirrored (ok : List Import → Prop) (R : List Import → PathText → String → Prop) (t : TypeExpr)
    (l : Lowered) : Prop where
  asType : Yields ok l.asType fun imports t' => Mirrors (R imports) t t'
  asBounds : Yields ok l.asBounds fun imports bounds => MirrorsBounds (R imports) t bounds

section

variable {ok : List Import → Prop} {R : List Import → PathText → String → Prop} {s : Scope} {dst : Package}
  {t : TypeExpr}

theorem mirrored_single {l : Lowering SigType} (h : Yields ok l fun imports t' => Mirrors (R imports) t t') :
    Mirrored ok R t (.single l) :=
  ⟨h, h.bind fun _ => yields_pure fun _ _ ht' => .type ht'⟩

theorem mirrored_boundOnly {text : String} {l : Lowering Bound}
    (h : Yields ok l fun imports b => MirrorsBounds (R imports) t [b]) : Mirrored ok R t (.boundOnly text l) :=
  ⟨yields_refuse, h.bind fun _ => yields_pure fun _ _ hb => hb⟩

private theorem yields_lowerHead (hpath : ∀ p, Yields ok (lowerPathText s dst p) fun imports text => R imports p text)
    (head : FunctionHead) : Yields ok (lowerHead s dst head) fun imports text => MirrorsHead (R imports) head text := by
  cases head with
  | keyword text => exact yields_pure fun _ _ => .keyword text
  | trait binder path =>
    refine (hpath path).bind fun text => yields_pure fun imports _ htext => ?_
    cases binder with
    | none => exact .trait htext
    | some b => exact .quantified b htext

mutual

/-- Lowering mirrors a type when it does so for its paths. -/
theorem mirrored_lower (hpath : ∀ p, Yields ok (lowerPathText s dst p) fun imports text => R imports p text) :
    (t : TypeExpr) → Mirrored ok R t (lower s dst t)
  | .primitive name => mirrored_single (yields_pure fun _ _ => .primitive name)
  | .named path => mirrored_single ((hpath path).map fun _ _ _ h => .named h)
  | .generic base args => by
    refine mirrored_single ((hpath base).bind fun text => ?_)
    exact (yields_lowerArgs hpath args).map fun _ _ _ hargs h => .generic h hargs
  | .reference l isMutable inner =>
    mirrored_single ((mirrored_lower hpath inner).asType.map fun _ _ _ h => .reference l isMutable h)
  | .pointer isMutable inner =>
    mirrored_single ((mirrored_lower hpath inner).asType.map fun _ _ _ h => .pointer isMutable h)
  | .array element length =>
    mirrored_single ((mirrored_lower hpath element).asType.bind fun _ => yields_pure fun _ _ h => .array length h)
  | .slice element => mirrored_single ((mirrored_lower hpath element).asType.map fun _ _ _ h => .slice h)
  | .tuple elements => mirrored_single ((yields_lowerTypes hpath elements).map fun _ _ _ h => .tuple h)
  | .parenthesized inner => mirrored_single ((mirrored_lower hpath inner).asType.map fun _ _ _ h => .parenthesized h)
  | .never => mirrored_single (yields_pure fun _ _ => .never)
  | .dynamic b =>
    have hb := (mirrored_lower hpath b).asBounds
    ⟨hb.map fun _ _ _ h => .dynamic h, hb.mono fun _ _ _ h => .dynamic h⟩
  | .abstract b =>
    have hb := (mirrored_lower hpath b).asBounds
    ⟨hb.map fun _ _ _ h => .abstract h, hb.mono fun _ _ _ h => .abstract h⟩
  | .sum l r => by
    have hl := (mirrored_lower hpath l).asBounds
    have hr := (mirrored_lower hpath r).asBounds
    have hboth : Yields ok (Lowered.append (lower s dst l).asBounds (lower s dst r).asBounds) fun imports bounds =>
        ∃ front back, bounds = front ++ back ∧ MirrorsBounds (R imports) l front ∧
          MirrorsBounds (R imports) r back :=
      hl.bind fun front => (hr.bind fun back => yields_pure fun _ _ hback hfront => ⟨front, back, rfl, hfront, hback⟩)
    refine ⟨hboth.map ?_, hboth.mono ?_⟩
    · rintro imports _ _ ⟨front, back, rfl, hfront, hback⟩
      exact .sum hfront hback
    · rintro imports _ _ ⟨front, back, rfl, hfront, hback⟩
      exact .sum hfront hback
  | .function head params result text => by
    refine mirrored_single ((yields_lowerHead hpath head).bind fun h => ?_)
    refine (yields_lowerParams hpath text params).bind fun ps => ?_
    exact (yields_lowerResult hpath result).map fun _ _ _ hresult hparams hhead => .function text hhead hparams hresult
  | .lifetime name => mirrored_boundOnly (yields_pure fun _ _ => .lifetime name)
  | .relaxed inner text => mirrored_boundOnly ((mirrored_lower hpath inner).asType.map fun _ _ _ h => .relaxed text h)
  | .quantified params inner =>
    mirrored_boundOnly ((mirrored_lower hpath inner).asType.map fun _ _ _ h => .quantified params h)
  | .other text => mirrored_single yields_refuse

theorem yields_lowerTypes (hpath : ∀ p, Yields ok (lowerPathText s dst p) fun imports text => R imports p text) :
    (ts : List TypeExpr) → Yields ok (lowerTypes s dst ts) fun imports ts' => MirrorsTypes (R imports) ts ts'
  | [] => yields_pure fun _ _ => .nil
  | t :: rest =>
    (mirrored_lower hpath t).asType.bind fun _ => (yields_lowerTypes hpath rest).map fun _ _ _ hrest h => .cons h hrest

theorem yields_lowerResult (hpath : ∀ p, Yields ok (lowerPathText s dst p) fun imports text => R imports p text) :
    (result : Option TypeExpr) →
      Yields ok (lowerResult s dst result) fun imports result' => MirrorsResult (R imports) result result'
  | none => yields_pure fun _ _ => .none
  | some t => (mirrored_lower hpath t).asType.map fun _ _ _ h => .some h

theorem yields_lowerParams (hpath : ∀ p, Yields ok (lowerPathText s dst p) fun imports text => R imports p text)
    (text : String) : (params : List FunctionParam) →
      Yields ok (lowerParams s dst text params) fun imports params' => MirrorsParams (R imports) params params'
  | [] => yields_pure fun _ _ => .nil
  | .variadic :: _ => yields_refuse
  | .typed t :: rest =>
    (mirrored_lower hpath t).asType.bind fun _ =>
      (yields_lowerParams hpath text rest).map fun _ _ _ hrest h => .cons h hrest

theorem yields_lowerArg (hpath : ∀ p, Yields ok (lowerPathText s dst p) fun imports text => R imports p text) :
    (a : GenericExpr) → Yields ok (lowerArg s dst a) fun imports a' => MirrorsArg (R imports) a a'
  | .type t => (mirrored_lower hpath t).asType.map fun _ _ _ h => .type h
  | .lifetime name => yields_pure fun _ _ => .lifetime name
  | .binding name t => (mirrored_lower hpath t).asType.map fun _ _ _ h => .binding name h
  | .genericBinding _ => yields_refuse
  | .const text => yields_pure fun _ _ => .const text
  | .bounds _ => yields_refuse

theorem yields_lowerArgs (hpath : ∀ p, Yields ok (lowerPathText s dst p) fun imports text => R imports p text) :
    (args : List GenericExpr) → Yields ok (lowerArgs s dst args) fun imports args' => MirrorsArgs (R imports) args args'
  | [] => yields_pure fun _ _ => .nil
  | a :: rest =>
    (yields_lowerArg hpath a).bind fun _ => (yields_lowerArgs hpath rest).map fun _ _ _ hrest h => .cons h hrest

end

end

end TraitMock.Signature
