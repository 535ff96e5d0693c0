import TraitMock.Modules.Scope
import TraitMock.Signature.Type
import TraitMock.Syntax.Type

namespace TraitMock.Signature

open Modules (ModuleItem Route Scope)
open Syntax (FunctionHead FunctionParam GenericExpr PathText TypeExpr)

/-- Lowering gathers imports, also where it fails in the end. -/
abbrev Lowering := ExceptT GenerationError (StateM ImportSet)

/-- Adds an import. -/
def need (i : Import) : Lowering Unit := modify fun (imports : ImportSet) => imports.insert i

/-- Refuses something that has no counterpart in a mock. -/
def refuse (what : String) : Lowering α := throw (.unsupported what)

def refuseType (text : String) : Lowering α := refuse ("type " ++ Text.ticked text)

/-- An item of a module as it is named below the destination. -/
def itemPath (dst : Package) (item : ModuleItem) : Lowering String := do
  let m := item.module
  if m.file.same dst.file then
    need ⟨Text.joinPath ["super", item.name], none⟩
    pure item.name
  else if m.isCrateRoot then pure (Text.joinPath [m.pathFrom dst, item.name])
  else
    need ⟨m.pathFrom dst, none⟩
    pure (Text.joinPath [m.ident, item.name])

/-- Adds an import that a scope has. -/
def needCarried (s : Scope) (dst : Package) (i : Import) : Lowering Unit := do
  match s.carry dst i with
  | .ok carried => need carried
  | .error e => throw e

/-- A single name of a scope. -/
def lowerName (s : Scope) (dst : Package) (name : String) : Lowering String := do
  if name = "Self" then pure name
  else
    match s.item? name, s.importNamed name with
    | some item, _ => itemPath dst item
    | none, some i => do
      needCarried s dst i
      pure name
    | none, none =>
      if Modules.isPrelude name then pure name else throw (.unknownType name s.package.spec)

/-- A path of a scope, of one or more segments. -/
def lowerPath (s : Scope) (dst : Package) (text : String) : Lowering String := do
  let whole := Text.compact text
  let path := Text.relativePath whole
  let segs := Text.segments path
  let first := segs.head?.getD ""
  if Text.contains whole "<" then refuse ("qualified path " ++ Text.ticked whole)
  else if segs.length = 1 then lowerName s dst path
  else if first = "Self" then refuse ("associated type " ++ Text.ticked path)
  else if Modules.relativeNames.contains first then rerouted path
  else
    match s.importNamed first with
    | some i => do
      needCarried s dst i
      pure path
    | none =>
      if s.children.contains first then rerouted path
      else if s.declares first then refuse ("associated item path " ++ Text.ticked path)
      else pure path
where
  /-- A path that leads through the modules of the crate. -/
  rerouted (path : String) : Lowering String :=
    match s.pathFrom dst path with
    | .ok p => pure p
    | .error e => throw e

/-- A path as the syntax tells single names from others. -/
def lowerPathText (s : Scope) (dst : Package) (p : PathText) : Lowering String :=
  if p.isName then lowerName s dst p.text else lowerPath s dst p.text

/-- What stands in front of the parameters of a function type. -/
def lowerHead (s : Scope) (dst : Package) : FunctionHead → Lowering String
  | .keyword text => pure text
  | .trait binder path => do
    let p ← lowerPathText s dst path
    pure (match binder with
      | some b => b ++ " " ++ p
      | none => p)

/-- Whether one of the bounds that are joined in a type is behind `impl`. -/
def joinsAbstract : TypeExpr → Bool
  | .abstract _ => true
  | .dynamic b => joinsAbstract b
  | .sum l r => joinsAbstract l || joinsAbstract r
  | _ => false

/-- What a type expression gives as a type, and what it gives where bounds are joined. -/
structure Lowered where
  asType : Lowering SigType
  asBounds : Lowering (List Bound)

namespace Lowered

/-- A type, which joins others as a trait. -/
def single (t : Lowering SigType) : Lowered where
  asType := t
  asBounds := do
    let t ← t
    pure [.trait none false t]

/-- Joined bounds, which are a type behind `dyn` or `impl`. -/
def joined (isAbstract : Bool) (bounds : Lowering (List Bound)) : Lowered where
  asType := (if isAbstract then .abstract else .dynamic) <$> bounds
  asBounds := bounds

/-- Something that stands for a bound, but not for a type. -/
def boundOnly (text : String) (b : Lowering Bound) : Lowered where
  asType := refuseType text
  asBounds := do
    let b ← b
    pure [b]

/-- Bounds behind others. -/
def append (l r : Lowering (List Bound)) : Lowering (List Bound) := do
  let front ← l
  let back ← r
  pure (front ++ back)

end Lowered

mutual

def lower (s : Scope) (dst : Package) : TypeExpr → Lowered
  | .primitive name => .single (pure (.named name))
  | .named path => .single (.named <$> lowerPathText s dst path)
  | .generic base args => .single do
    let path ← lowerPathText s dst base
    .path path <$> lowerArgs s dst args
  | .reference l isMutable inner => .single (.reference l isMutable <$> (lower s dst inner).asType)
  | .pointer isMutable inner => .single (.pointer isMutable <$> (lower s dst inner).asType)
  | .array element length => .single do
    let t ← (lower s dst element).asType
    pure (.array t length)
  | .slice element => .single (.slice <$> (lower s dst element).asType)
  | .tuple elements => .single (.tuple <$> lowerTypes s dst elements)
  | .parenthesized inner => .single (.parenthesized <$> (lower s dst inner).asType)
  | .never => .single (pure .never)
  | .dynamic b => .joined (joinsAbstract b) (lower s dst b).asBounds
  | .abstract b => .joined true (lower s dst b).asBounds
  | .sum l r =>
    .joined (joinsAbstract l || joinsAbstract r) (Lowered.append (lower s dst l).asBounds (lower s dst r).asBounds)
  | .function head params result text => .single do
    let h ← lowerHead s dst head
    let ps ← lowerParams s dst text params
    .function h ps <$> lowerResult s dst result
  | .lifetime name => .boundOnly name (pure (.lifetime name))
  | .relaxed inner text => .boundOnly text (.trait none true <$> (lower s dst inner).asType)
  | .quantified params inner =>
    .boundOnly ("for" ++ params) (.trait (some ("for" ++ params)) false <$> (lower s dst inner).asType)
  | .other text => .single (refuseType text)

def lowerTypes (s : Scope) (dst : Package) : List TypeExpr → Lowering (List SigType)
  | [] => pure []
  | t :: rest => do
    let t ← (lower s dst t).asType
    (t :: ·) <$> lowerTypes s dst rest

def lowerResult (s : Scope) (dst : Package) : Option TypeExpr → Lowering (Option SigType)
  | none => pure none
  | some t => some <$> (lower s dst t).asType

/-- The parameters of the function type that is written `text`. -/
def lowerParams (s : Scope) (dst : Package) (text : String) : List FunctionParam → Lowering (List SigType)
  | [] => pure []
  | .variadic :: _ => refuse ("C variadic function type " ++ Text.ticked text)
  | .typed t :: rest => do
    let t ← (lower s dst t).asType
    (t :: ·) <$> lowerParams s dst text rest

def lowerArg (s : Scope) (dst : Package) : GenericExpr → Lowering GenericArg
  | .type t => .type <$> (lower s dst t).asType
  | .lifetime name => pure (.lifetime name)
  | .binding name t => .binding name <$> (lower s dst t).asType
  | .genericBinding text => refuse ("generic associated type binding " ++ Text.ticked text)
  | .const text => pure (.const text)
  | .bounds text => refuse ("bounds in generic arguments " ++ Text.ticked text)

def lowerArgs (s : Scope) (dst : Package) : List GenericExpr → Lowering (List GenericArg)
  | [] => pure []
  | a :: rest => do
    let a ← lowerArg s dst a
    (a :: ·) <$> lowerArgs s dst rest

end

/-- A type of a scope as it is written below the destination. -/
def lowerType (s : Scope) (dst : Package) (t : TypeExpr) : Lowering SigType := (lower s dst t).asType

end TraitMock.Signature
