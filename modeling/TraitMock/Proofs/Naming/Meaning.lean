import TraitMock.Proofs.Text.Segments
import TraitMock.Signature.Lowering

namespace TraitMock

/-- A crate, told from others by its name and by the directory of its package. -/
structure CrateId where
  name : String
  directory : List Path.Step
  deriving DecidableEq, Repr

def Package.crate (p : Package) : CrateId := ⟨p.crateName, p.directory.steps⟩

theorem Package.sameCrate_iff {p q : Package} : p.sameCrate q = true ↔ p.crate = q.crate := by
  simp [sameCrate, crate, Path.same]

/-- What a path denotes. -/
inductive Meaning where
  /-- What the names lead to from the root of a crate on. -/
  | item (crate : CrateId) (segments : List String)
  /-- What every module knows under a name. -/
  | prelude (name : String)
  /-- The type that implements the trait. -/
  | self
  deriving DecidableEq, Repr

/-- What further segments of a path lead to. -/
def Meaning.below (rest : List String) : Meaning → Meaning
  | .item crate segments => .item crate (segments ++ rest)
  | m => m

namespace Modules

open Syntax (PathText)

/-- What an item of a module is called from the root of its crate on. -/
def ModuleItem.meaning (i : ModuleItem) : Meaning := .item i.module.crate (i.module.modulePath ++ [i.name])

section Reading

-- the crates that are known by a name everywhere: the standard library and those that others depend on
variable (externs : String → Option CrateId)

/-- What a path into another crate denotes. -/
def outside? : List String → Option Meaning
  | [] => none
  | root :: rest => (externs root).map (.item · rest)

/-- What lies at the end of a route that begins in a crate. -/
def Route.meaning? (crate : CrateId) : Route → Option Meaning
  | .inside segments => some (.item crate segments)
  | .outside path => outside? externs (Text.segments path)

namespace Scope

/-- What a path denotes that is followed through modules and crates, as in an import. -/
def routed? (s : Scope) (path : String) : Option Meaning :=
  (s.route path).toOption.bind (Route.meaning? externs s.package.crate)

/-- Whether a module declares a name, imports it, or has it from a module all of whose items it imports. -/
def binds (s : Scope) (name : String) : Bool :=
  s.declares name || (s.importNamed name).isSome || s.globs.any (·.2.contains name)

/-- What a name is bound to in a module: what is declared comes before imports, and these before modules all of
    whose items are imported. -/
def bound? (s : Scope) (name : String) : Option Meaning :=
  if s.declares name then some (ModuleItem.meaning ⟨s.package, name⟩)
  else
    match s.importNamed name with
    | some i => s.routed? externs i.path
    | none => (s.globs.find? (·.2.contains name)).map fun g => ModuleItem.meaning ⟨g.1, name⟩

/-- What a path denotes in a module. The first segment may be bound there; otherwise the path leads through the
    modules of the crate, or is a name that every module knows, or leads into another crate. -/
def meaning? (s : Scope) (path : String) : Option Meaning :=
  match Text.segments path with
  | [] => none
  | first :: rest =>
    if rest = [] ∧ first = "Self" then some .self
    else if relativeNames.contains first then s.routed? externs path
    else if s.binds first then (s.bound? externs first).map (Meaning.below rest)
    else if rest = [] then (if isPrelude first then some (.prelude first) else none)
    else s.routed? externs path

end Scope

/-- What a path of a signature denotes in a module. -/
def PathText.meaning? (s : Scope) (p : PathText) : Option Meaning :=
  s.meaning? externs (if p.isName then p.text else Text.compact p.text)

end Reading

/-- The file of a mock: a child of the destination that has some imports. -/
def mockScope (dst : Package) (child : String) (imports : List Import) : Scope where
  package := { dst with modulePath := dst.modulePath ++ [child] }
  source := ⟨dst.file, []⟩
  bindings := imports.map (⟨·, false⟩)
  typeNames := []
  children := []
  globs := []

/-- A name that can be that of an item: a text without colons that is no keyword of paths. -/
def IsProper (name : String) : Prop := Text.IsName name ∧ relativeNames.contains name = false

instance : DecidablePred IsProper := fun name =>
  inferInstanceAs (Decidable (Text.IsName name ∧ relativeNames.contains name = false))

theorem IsProper.ne_of_relative {name keyword : String} (h : IsProper name)
    (hkeyword : relativeNames.contains keyword = true) : name ≠ keyword := by
  rintro rfl
  rw [h.2] at hkeyword
  cases hkeyword

section MockScope

variable {externs : String → Option CrateId} {dst : Package} {child : String} {imports : List Import}

theorem importNamed_mockScope (name : String) :
    (mockScope dst child imports).importNamed name = imports.find? (·.name = name) := by
  simp [Scope.importNamed, mockScope, List.filter_map, Function.comp_def]

@[simp] theorem declares_mockScope (name : String) : (mockScope dst child imports).declares name = false := rfl

theorem binds_mockScope (name : String) :
    (mockScope dst child imports).binds name = (imports.find? (·.name = name)).isSome := by
  unfold Scope.binds
  rw [importNamed_mockScope, declares_mockScope]
  exact Bool.or_false _

theorem bound?_mockScope {i : Import} {name : String} (h : imports.find? (·.name = name) = some i) :
    (mockScope dst child imports).bound? externs name = (mockScope dst child imports).routed? externs i.path := by
  unfold Scope.bound?
  rw [importNamed_mockScope, h, declares_mockScope]
  rfl

end MockScope

end Modules

end TraitMock
