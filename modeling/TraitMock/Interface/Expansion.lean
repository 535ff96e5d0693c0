import TraitMock.Interface.AsyncTrait
import TraitMock.Interface.Basic

namespace TraitMock

open Files (Tree)
open Modules (ModuleItem Route Scope)
open Signature (Lowering itemPath refuse)
open Syntax (SuperBound)

/-- Traits that a mock satisfies without an implementation of its own. -/
def impliedTraits : List String :=
  ["Any", "Clone", "Debug", "RefUnwindSafe", "Send", "Sized", "Sync", "Unpin", "UnwindSafe"]

/-- What a walk has seen. -/
structure Walk where
  /-- The names of the modules that were looked into, by their files. -/
  scopes : List (Path × Scope) := []
  /-- The traits that were visited, by their files and names. -/
  visited : List (Path × String) := []
  /-- What was found, in order. -/
  traits : List TraitImpl := []
  imports : ImportSet := {}

/-- A step of a walk. -/
abbrev Walking := StateT Walk Resolving

/-- A bound that is still to be followed. -/
structure Pending where
  scope : Scope
  /-- The trait that has the bound. -/
  traitName : String
  bound : SuperBound

namespace Walking

/-- Lowers something and keeps the imports that it needs. -/
def gather (l : Lowering α) : Walking α := do
  let w ← get
  match l.run.run w.imports with
  | (.ok a, imports) => do
    set { w with imports := imports }
    pure a
  | (.error e, _) => throw e

/-- The names of a module. They are looked up once for a file. -/
def scopeOf (files : Tree) (p : Package) : Walking Scope := do
  match (← get).scopes.find? fun x => x.1.same p.file with
  | some x => pure x.2
  | none => do
    let s ← (Scope.load files p : Resolving Scope)
    modify fun w => { w with scopes := (p.file, s) :: w.scopes }
    pure s

/-- Whether a trait was visited. -/
def isVisited (item : ModuleItem) (w : Walk) : Bool :=
  w.visited.any fun x => x.1.same item.module.file && x.2 = item.name

/-- Reads the members of a trait that are methods; other members have no counterpart in a mock. -/
def methodsOf (s : Scope) (dst : Package) (variadicSlices : Bool) (name path : String) :
    List Syntax.Member → Lowering (List Method)
  | [] => pure []
  | .blank :: rest => methodsOf s dst variadicSlices name path rest
  | .method d :: rest => do
    let m ← Method.lower s dst variadicSlices path d
    (m :: ·) <$> methodsOf s dst variadicSlices name path rest
  | .associatedType :: _ => refuse ("associated type in trait " ++ name)
  | .associatedConst :: _ => refuse ("associated const in trait " ++ name)
  | .other kind :: _ => refuse (kind ++ " in trait " ++ name)

/-- Visits a trait unless it was visited, and gives its bounds. -/
def visit (files : Tree) (dst : Package) (variadicSlices : Bool) (item : ModuleItem) :
    Walking (List Pending) := do
  if isVisited item (← get) then pure []
  else
    modify fun w => { w with visited := (item.module.file, item.name) :: w.visited }
    let s ← scopeOf files item.module
    match findTrait item.name [] s.source.entries with
    | none => throw (.unknownTrait item.name item.module.spec)
    | some (t, asyncMark) =>
      if let some params := t.generics then
        throw (.unsupported ("generic trait " ++ item.name ++ params))
      let path ← gather (itemPath dst item)
      let methods ← gather (methodsOf s dst variadicSlices item.name path t.members)
      modify fun w => { w with traits := w.traits ++ [⟨item.name, path, t.isUnsafe, asyncMark, methods⟩] }
      pure (t.bounds.map (⟨s, item.name, ·⟩))

/-- The trait at the end of a path of a module, or none if a mock satisfies it anyway. -/
def traitAt (files : Tree) (s : Scope) (path : String) : Walking (Option ModuleItem) := do
  match s.route path with
  | .error e => throw e
  | .ok (.inside segments) =>
    match segments.getLast? with
    | none => throw (.invalidImport path s.package.spec)
    | some name => do
      let m ← (Resolver.moduleIn files s.package segments.dropLast : Resolving Package)
      pure (some ⟨m, name⟩)
  | .ok (.outside p) =>
    let segs := Text.segments p
    if isStandardRoot (segs.head?.getD "") && impliedTraits.contains (segs.getLast?.getD "") then pure none
    else throw (.unsupported ("supertrait " ++ p ++ " outside the workspace"))

/-- The trait that a single name in a bound stands for. -/
def traitNamed (files : Tree) (s : Scope) (owner name : String) : Walking (Option ModuleItem) := do
  match s.item? name, s.importNamed name with
  | some item, _ => pure (some item)
  | none, some i => traitAt files s i.path
  | none, none =>
    if impliedTraits.contains name then pure none
    else if Modules.isPrelude name then throw (.unsupported ("supertrait " ++ name ++ " of " ++ owner))
    else throw (.unknownTrait name s.package.spec)

/-- The trait that a path in a bound stands for. -/
def traitOnPath (files : Tree) (s : Scope) (text : String) : Walking (Option ModuleItem) := do
  let path := Text.relativePath (Text.compact text)
  let segs := Text.segments path
  match s.importNamed (segs.head?.getD "") with
  | some i => traitAt files s (i.path ++ "::" ++ Text.joinPath (segs.drop 1))
  | none => traitAt files s path

/-- The trait that a bound demands. -/
def demanded (files : Tree) (p : Pending) : Walking (Option ModuleItem) := do
  match p.bound with
  | .marker => pure none
  | .trait ⟨text, true⟩ => traitNamed files p.scope p.traitName text
  | .trait ⟨text, false⟩ => traitOnPath files p.scope text
  | .other text => throw (.unsupported ("supertrait " ++ text ++ " of " ++ p.traitName))

/-- Visits a trait and then, bound by bound, all that it demands. A trait that was visited is not visited again. A walk
    goes at most `n` traits deep. -/
def expand (files : Tree) (dst : Package) (variadicSlices : Bool) : Nat → ModuleItem → Walking Unit
  | 0, _ => pure ()
  | n + 1, item => do
    let bounds ← visit files dst variadicSlices item
    bounds.forM fun p => do
      match ← demanded files p with
      | none => pure ()
      | some next => expand files dst variadicSlices n next

/-- No walk goes deeper than this. A trait is not visited twice, so a walk goes no deeper than there are traits; a
file has no more traits than bytes, and it is found at its place, or where the module lies from which the walk starts
or one that was found before. -/
def depthLimit (files : Tree) (r : Resolver) : Nat :=
  files.size * (files.entries.length + r.found.length + 1) + 1

end Walking

/-- The interface of the trait `name` in a module, for a mock below the module `dst`. -/
def Interface.ofTrait (files : Tree) (src dst : Package) (variadicSlices : Bool) (name : String) :
    Resolving Interface := do
  let limit := Walking.depthLimit files (← get)
  let (_, w) ← (Walking.expand files dst variadicSlices limit ⟨src, name⟩).run {}
  let i : Interface := ⟨name, w.traits, w.imports⟩
  if i.methods.isEmpty then throw (.noMethods name) else pure i

end TraitMock
