import TraitMock.Generation.MockSource
import TraitMock.Generation.Request
import TraitMock.Generation.SnakeCase
import TraitMock.Interface.Expansion

namespace TraitMock.Generation

open Files (Tree)

/-- What generation works on. -/
structure Workspace where
  files : Tree
  resolver : Resolver
  /-- What went to the standard output. -/
  printed : String := ""
  deriving Repr

/-- A part of a run. What was done before an error stays done. -/
abbrev Generating := ExceptT GenerationError (StateM Workspace)

/-- Where a mock goes. -/
inductive Output where
  | stdout
  | file (path : Path)
  deriving DecidableEq, Repr

/-- A mock that was generated. -/
structure Generated where
  mockName : String
  source : String
  output : Output
  deriving DecidableEq, Repr

/-- Where the mock goes that a request asks for: what the request says, from the directory `cwd` on, or a file
below the destination that is named after the mock. -/
def outputOf (r : Request) (cwd : Path) (dst : Package) : Output :=
  match r.output with
  | some p => if Path.same ⟨p⟩ ⟨"-"⟩ then .stdout else .file (cwd.join p)
  | none => .file (dst.childDirectory.join (snakeCase r.mockName ++ ".rs"))

/-- The mock that a request asks for. -/
def generated (files : Tree) (r : Request) : Resolving Generated := do
  let src ← Resolver.resolve files r.source
  let dst ← Resolver.resolve files r.destination
  let i ← Interface.ofTrait files src dst r.settings.variadicSlices r.traitName
  match mockSource i r.mockName r.settings with
  | .error e => throw e
  | .ok source => pure ⟨r.mockName, source, outputOf r (← get).cwd dst⟩

/-- Prints to the standard output. -/
def print (s : String) : Generating Unit := modify fun w => { w with printed := w.printed ++ s }

/-- Generates a mock without writing it. -/
def generate (r : Request) : Generating Generated := do
  let w ← get
  let (g, resolver) := (generated w.files r).run.run w.resolver
  set { w with resolver := resolver }
  match g with
  | .ok g => pure g
  | .error e => throw e

/-- Changes the files. A fault is reported at the path. -/
def change (path : Path) (f : Tree → Except Files.Fault Tree) : Generating Unit := do
  let w ← get
  match f w.files with
  | .ok files => set { w with files := files }
  | .error fault => throw (.io path fault)

/-- Writes a mock to its file, with the directories above it, or to the standard output. -/
def Generated.write (g : Generated) : Generating Unit := do
  match g.output with
  | .stdout => print g.source
  | .file path => do
    match path.parent? with
    | some dir => change dir fun files => files.makeDirectories dir
    | none => pure ()
    change path fun files => files.writeText path g.source

/-- Generates a mock and writes it. -/
def run (r : Request) : Generating Output := do
  let g ← generate r
  g.write
  pure g.output

end TraitMock.Generation
