import TraitMock.Manifest.Discovery
import TraitMock.Manifest.Metadata
import TraitMock.Modules.Package
import TraitMock.Modules.Source
import TraitMock.Modules.Spec

namespace TraitMock

open Files (Tree)
open Manifest (Target TargetKind)

/-- What the build tool answers when it is asked for the packages of a workspace. -/
inductive BuildTool where
  /-- It is not asked. -/
  | unused
  /-- It cannot be run. -/
  | absent
  | answers (status : Int) (output errors : String)
  deriving DecidableEq, Repr

namespace BuildTool

/-- The targets that the build tool describes, or what it has to say instead. -/
def targets : BuildTool → Except String (List Target)
  | unused => .ok []
  | absent => .error ("failed to run cargo: " ++ Files.Fault.missing.message)
  | answers status output errors =>
    if status = 0 then
      (Manifest.targetsOfMetadata output).mapError fun e => "invalid cargo metadata: " ++ e.message
    else .error errors

end BuildTool

/-- What finds modules by their files and by their module paths. It remembers what it found, under the text that was asked
    for and under the module path of the answer. -/
structure Resolver where
  /-- The directory that relative paths start from. -/
  cwd : Path
  tool : BuildTool := .unused
  /-- The targets of all packages, once they were asked for. -/
  known? : Option (List Target) := none
  /-- What the build tool had to say when it described no targets. -/
  complaint : Option String := none
  found : List (String × Package) := []
  deriving Repr

/-- Something that asks a resolver and may fail. -/
abbrev Resolving := ExceptT GenerationError (StateM Resolver)

namespace Resolver

open Modules

/-- The targets of all packages, and what the build tool had to say. If it describes none, the packages are
looked for. -/
def loadTargets (files : Tree) (r : Resolver) : List Target × Option String :=
  match r.tool.targets with
  | .ok [] => (Manifest.discover files r.cwd, none)
  | .ok ts => (ts, none)
  | .error complaint => (Manifest.discover files r.cwd, some complaint)

/-- The targets of all packages. They are looked for once. -/
def targets (files : Tree) : Resolving (List Target) := do
  let r ← get
  match r.known? with
  | some ts => pure ts
  | none => do
    let (ts, complaint) := r.loadTargets files
    set { r with known? := some ts, complaint := complaint.or r.complaint }
    pure ts

/-- The last of the elements with the greatest weight. -/
def lastHeaviest (weight : α → Nat) : List α → Option α
  | [] => none
  | a :: rest =>
    match lastHeaviest weight rest with
    | none => some a
    | some b => if weight b < weight a then some a else some b

/-- A weight by which deeper directories win, and libraries among targets of one directory. -/
def depthWeight (dir : Path) (kind : TargetKind) : Nat := 2 * dir.steps.length + (if kind = .lib then 1 else 0)

/-- The names that lead from a source directory to a file in it. -/
def modulePathOf (sourceDir file : Path) : List String :=
  if file.startsWith sourceDir then
    let below := (file.steps.drop sourceDir.steps.length).map Path.Step.text
    if ownsDirectory file then below.dropLast
    else below.dropLast ++ (file.fileStem?).toList
  else []

/-- The module at a file of a target. -/
def packageOf (files : Tree) (t : Target) (file : Path) (modulePath : List String) : Package :=
  ⟨t.crateName, t.directory, files.canonicalOr t.rootFile, modulePath, file⟩

/-- The file of the module that a directory stands for. -/
def fileForDirectory (files : Tree) (dir : Path) : Resolving Path := do
  let own ← if Manifest.isPackage files dir then do
      let ts := (← targets files).filter fun t => (files.canonicalOr t.directory).same dir
      pure ((ts.find? fun t => t.kind = .lib).or ts.head?)
    else pure none
  match own with
  | some t => pure (files.canonicalOr t.rootFile)
  | none =>
    let candidates := [dir.join "mod.rs", dir.join "lib.rs", dir.join "main.rs", dir.withExtension "rs"]
    match candidates.find? files.isFile with
    | some file => pure file
    | none => throw (.unknownPackage dir.text none)

/-- The module at the end of a path. -/
def resolvePath (files : Tree) (path : Path) : Resolving Package := do
  match files.canonical path with
  | .error fault => throw (.io path fault)
  | .ok path => do
    let file ← if files.isDirectory path then fileForDirectory files path else pure path
    let around := (← targets files).filter fun t => file.startsWith (files.canonicalOr t.sourceDirectory)
    match lastHeaviest (fun t => depthWeight (files.canonicalOr t.sourceDirectory) t.kind) around with
    | none => throw (.outsidePackage path)
    | some t =>
      let modulePath :=
        if file.same (files.canonicalOr t.rootFile) then []
        else modulePathOf (files.canonicalOr t.sourceDirectory) file
      pure (packageOf files t file modulePath)

/-- The target that paths name `name`: a library if there is one. -/
def target? (files : Tree) (name : String) : Resolving (Option Target) := do
  let ts ← targets files
  pure ((ts.find? fun t => t.kind = .lib && t.crateName = name).or (ts.find? fun t => t.crateName = name))

/-- The file of the module `name` that a file declares, or that lies where such a module would. -/
def childFile (files : Tree) (file : Path) (name : String) : Except GenerationError (Option Path) := do
  let source ← Source.read files file
  let declared := ((source.declarations files).find? fun d => d.name = name).bind (·.file?)
  let path := declared.getD (moduleFile files (childDirectory file) name)
  pure (if files.isFile path then some path else none)

/-- The file of the module that `names` lead to from the module in a file. `spec` is what was asked for. -/
def descend (files : Tree) (spec : String) (file : Path) : List String → Except GenerationError Path
  | [] => .ok file
  | name :: rest => do
    match ← childFile files file name with
    | some child => descend files spec child rest
    | none => throw (.unknownPackage spec none)

/-- The package around the working directory, a library if it has one. -/
def targetAround? (files : Tree) : Resolving (Option Target) := do
  let ts ← targets files
  let here := files.canonicalOr (← get).cwd
  let around := ts.filter fun t => here.startsWith (files.canonicalOr t.directory)
  pure (lastHeaviest (fun t => depthWeight (files.canonicalOr t.directory) t.kind) around)

/-- The module that a module path names. -/
def resolveSpec (files : Tree) (spec : String) : Resolving Package := do
  match parseSpec spec with
  | .error e => throw e
  | .ok [] => throw (.invalidSpec spec)
  | .ok (first :: rest) => do
    match ← if first = "crate" then targetAround? files else target? files first with
    | none => throw (.unknownPackage spec (← get).complaint)
    | some t =>
      match descend files spec t.rootFile rest with
      | .ok file => pure (packageOf files t (files.canonicalOr file) rest)
      | .error e => throw e

/-- Remembers a module under a text. -/
def remember (text : String) (p : Package) : Resolving Unit :=
  modify fun r => { r with found := (text, p) :: r.found }

/-- The module that a text names: a path that is there, or a module path. -/
def resolve (files : Tree) (input : String) : Resolving Package := do
  let r ← get
  match r.found.lookup input with
  | some p => pure p
  | none => do
    let candidate := r.cwd.join input
    let p ← if input ≠ "" && files.has candidate then resolvePath files candidate
      else resolveSpec files input
    remember input p
    remember p.spec p
    pure p

/-- The module that names lead to from the root of the crate of `base`. -/
def moduleIn (files : Tree) (base : Package) (modulePath : List String) : Resolving Package := do
  let spec := Text.joinPath (base.crateName :: modulePath)
  match (← get).found.lookup spec with
  | some p => if p.crateRoot.same base.crateRoot then pure p else look spec
  | none => look spec
where
  look (spec : String) : Resolving Package := do
    match descend files spec base.crateRoot modulePath with
    | .error e => throw e
    | .ok file => do
      let p := { base with modulePath := modulePath, file := files.canonicalOr file }
      remember spec p
      pure p

end Resolver

end TraitMock
