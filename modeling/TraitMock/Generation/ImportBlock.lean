import TraitMock.Generation.Error
import TraitMock.Modules.Import

namespace TraitMock.Generation

/-- The import of the runtime crate, under the name by which generated code uses it. -/
def runtimeImport (crate : String) : Import := ⟨crate, some "mock"⟩

/-- The import of the pointer that generated code shares its tester by. -/
def arcImport : Import := ⟨"std::sync::Arc", none⟩

/-- The first of some imports that binds the name of another import to something else. -/
def clash? (types : ImportSet) (own : Import) : Option Import :=
  types.toList.find? fun i => i.name = own.name && i.path ≠ own.path

/-- The first clash between the imports that signatures need and those of generated code. -/
def firstClash? (types : ImportSet) : List Import → Option (Import × Import)
  | [] => none
  | own :: rest =>
    match clash? types own with
    | some i => some (i, own)
    | none => firstClash? types rest

/-- The imports of a generated file: those that the signatures need, and those that generated code uses. -/
def allImports (types : ImportSet) (runtimeCrate : String) (tester : Import) :
    Except GenerationError ImportSet :=
  let own := [runtimeImport runtimeCrate, tester, arcImport]
  match firstClash? types own with
  | some (i, mine) =>
    .error (.unsupported ("import " ++ i.text ++ " shadows " ++ mine.text ++ " used by the generated mock"))
  | none => .ok (own.foldl ImportSet.insert types)

/-- Puts a line at its place among others, unless it is there. -/
def insertLine (line : String) : List String → List String
  | [] => [line]
  | other :: rest =>
    if line = other then other :: rest
    else if line < other then line :: other :: rest
    else other :: insertLine line rest

/-- Lines in order, each of them once. -/
def sortedLines (lines : List String) : List String := lines.foldl (fun sorted line => insertLine line sorted) []

/-- The declarations of some imports, in order. -/
def importLines (imports : List Import) : List String := sortedLines (imports.map Import.render)

/-- A block of lines, each with its end. -/
def linesText (lines : List String) : String := String.join (lines.map (· ++ "\n"))

/-- The imports as declarations: the standard library first, then the rest, with an empty line between the two
groups if there are both. -/
def importBlock (imports : ImportSet) : String :=
  let standard := importLines (imports.toList.filter (·.isStandard))
  let other := importLines (imports.toList.filter fun i => !i.isStandard)
  linesText standard ++ (if standard = [] || other = [] then "" else "\n") ++ linesText other

end TraitMock.Generation
