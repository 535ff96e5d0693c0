import TraitMock.Modules.Resolver

namespace TraitMock.Modules

open Files (Tree)

/-- The names that every module knows. -/
def preludeNames : List String :=
  ["AsMut", "AsRef", "Box", "Clone", "Copy", "Default", "DoubleEndedIterator", "Drop", "Eq",
    "ExactSizeIterator", "Extend", "Fn", "FnMut", "FnOnce", "From", "FromIterator", "Into",
    "IntoIterator", "Iterator", "Option", "Ord", "PartialEq", "PartialOrd", "Result", "Send",
    "Sized", "String", "Sync", "ToOwned", "ToString", "TryFrom", "TryInto", "Unpin", "Vec"]

def isPrelude (name : String) : Bool := preludeNames.contains name

/-- Where a path leads. -/
inductive Route where
  /-- From the root of the crate that the path is written in. -/
  | inside (segments : List String)
  /-- Into another crate, as the path is written. -/
  | outside (path : String)
  deriving DecidableEq, Repr

/-- A type or trait of a module. -/
structure ModuleItem where
  module : Package
  name : String
  deriving DecidableEq, Repr

/-- The names of a module. -/
structure Scope where
  package : Package
  source : Source
  bindings : List Binding
  /-- The types and traits that the module declares. -/
  typeNames : List String
  /-- The modules that it declares. -/
  children : List String
  /-- The modules whose items are all imported, with the types and traits that they declare. -/
  globs : List (Package × List String)

namespace Scope

/-- Where a path leads that is written in the module. -/
def route (s : Scope) (path : String) : Except GenerationError Route :=
  let here := s.package.modulePath
  let segs := Text.segments path
  match segs.head? with
  | some "crate" => .ok (.inside (segs.drop 1))
  | some "self" => .ok (.inside (here ++ segs.drop 1))
  | some "super" =>
    let ups := (segs.takeWhile (· = "super")).length
    if ups > here.length then .error (.invalidImport path s.package.spec)
    else .ok (.inside (here.take (here.length - ups) ++ segs.drop ups))
  | some first => .ok (if s.children.contains first then .inside (here ++ segs) else .outside path)
  | none => .ok (.outside path)

/-- The import that binds a name. -/
def importNamed (s : Scope) (name : String) : Option Import :=
  ((s.bindings.filter (!·.isGlob)).map (·.item)).find? (·.name = name)

def declares (s : Scope) (name : String) : Bool := s.typeNames.contains name

/-- The item that a name stands for: one of the module, or one that is imported with all others of its module
if no import binds the name. -/
def item? (s : Scope) (name : String) : Option ModuleItem :=
  if s.declares name then some ⟨s.package, name⟩
  else if (s.importNamed name).isSome then none
  else (s.globs.find? (·.2.contains name)).map fun g => ⟨g.1, name⟩

/-- A path from the root of the crate of the module, as it is written in `dst`. -/
def pathInto (s : Scope) (dst : Package) (segments : List String) : String :=
  Text.joinPath (s.package.rootFrom dst :: segments)

/-- A path that is written in the module, as it is written in `dst`. -/
def pathFrom (s : Scope) (dst : Package) (path : String) : Except GenerationError String := do
  match ← s.route path with
  | .inside segments => pure (s.pathInto dst segments)
  | .outside p => pure p

/-- An import of the module, as it is written in `dst`. -/
def carry (s : Scope) (dst : Package) (i : Import) : Except GenerationError Import := do
  let path ← s.pathFrom dst i.path
  pure { i with path := path }

/-- The names of a module before the modules are looked into whose items are all imported. -/
def ofSource (files : Tree) (p : Package) (source : Source) : Scope where
  package := p
  source := source
  bindings := Binding.ofEntries source.entries
  typeNames := source.typeNames
  children := (source.declarations files).map (·.name)
  globs := []

/-- The module whose items are all imported by a path, with the types and traits that it declares. Modules that
cannot be read count as empty, and so do those of other crates. -/
def glob? (files : Tree) (s : Scope) (path : String) : Resolving (Option (Package × List String)) := do
  match s.route path with
  | .error e => throw e
  | .ok (.outside _) => pure none
  | .ok (.inside segments) =>
    tryCatch
      (do
        let m ← Resolver.moduleIn files s.package segments
        match Source.read files m.file with
        | .ok source => pure (some (m, source.typeNames))
        | .error e => throw e)
      fun _ => pure none

/-- The names of a module. -/
def load (files : Tree) (p : Package) : Resolving Scope := do
  match Source.read files p.file with
  | .error e => throw e
  | .ok source =>
    let s := ofSource files p source
    let paths := (s.bindings.filter (·.isGlob)).map (·.item.path)
    let globs ← paths.mapM (glob? files s)
    pure { s with globs := globs.filterMap id }

end Scope

end TraitMock.Modules
