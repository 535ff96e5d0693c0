import TraitMock.Json.Decode
import TraitMock.Manifest.Target

namespace TraitMock.Manifest

open Json (Read readList readPath readString)

/-- A target as it is described. -/
structure TargetEntry where
  name : String := ""
  kinds : List String := []
  source : String := ""
  deriving Repr

/-- A package as it is described. -/
structure PackageEntry where
  name : String := ""
  manifest : String := ""
  targets : List TargetEntry := []
  deriving Repr

def targetShape : Json.Shape TargetEntry where
  name := "MetaTarget"
  fields := ["name", "kind", "src_path"]
  required := ["name", "kind", "src_path"]
  read t field j :=
    match field with
    | "name" => do pure { t with name := ← readString j }
    | "kind" => do pure { t with kinds := ← readList readString j }
    | _ => do pure { t with source := ← readPath j }

def packageShape : Json.Shape PackageEntry where
  name := "MetaPackage"
  fields := ["name", "manifest_path", "targets"]
  required := ["name", "manifest_path", "targets"]
  read p field j :=
    match field with
    | "name" => do pure { p with name := ← readString j }
    | "manifest_path" => do pure { p with manifest := ← readPath j }
    | _ => do pure { p with targets := ← readList (targetShape.decode {}) j }

def workspaceShape : Json.Shape (List PackageEntry) where
  name := "Metadata"
  fields := ["packages"]
  required := ["packages"]
  read _ _ j := readList (packageShape.decode {}) j

/-- The kinds of targets that are libraries. -/
def libraryKinds : List String := ["lib", "rlib", "proc-macro", "cdylib", "dylib", "staticlib"]

/-- The kind of a target; tests, examples and the like have none. -/
def kindOf (kinds : List String) : Option TargetKind :=
  if kinds.contains "bin" then some .bin
  else if kinds.any libraryKinds.contains then some .lib
  else none

/-- The targets of a package. -/
def PackageEntry.toTargets (p : PackageEntry) : List Target :=
  let dir := (Path.mk p.manifest).parent?.getD ⟨""⟩
  p.targets.filterMap fun t =>
    (kindOf t.kinds).map fun kind => ⟨p.name, pathName t.name, kind, dir, ⟨t.source⟩⟩

/-- The targets of a described workspace. -/
def targetsOfMetadata (json : String) : Read (List Target) := do
  let packages ← (Json.parse json).decode (workspaceShape.decode [])
  pure (packages.flatMap PackageEntry.toTargets)

end TraitMock.Manifest
