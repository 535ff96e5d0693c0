import TraitMock.Files.Tree
import TraitMock.Manifest.Table

namespace TraitMock.Manifest

inductive TargetKind where
  | lib
  | bin
  deriving DecidableEq, Repr

def TargetKind.name : TargetKind → String
  | .lib => "lib"
  | .bin => "bin"

/-- A library or a program. -/
structure Target where
  package : String
  /-- The name that paths begin with. -/
  crateName : String
  kind : TargetKind
  /-- The directory of the package. -/
  directory : Path
  /-- The file that the module tree starts from. -/
  rootFile : Path
  deriving DecidableEq, Repr

/-- The directory that holds the modules below the root. -/
def Target.sourceDirectory (t : Target) : Path := t.rootFile.parent?.getD t.directory

/-- The name of a package as paths write it. -/
def pathName (name : String) : String :=
  String.ofList (name.toList.map fun c => if c = '-' then '_' else c)

/-- The name of the manifest file. -/
def fileName : String := "Cargo.toml"

/-- Whether a directory holds a manifest. -/
def isPackage (files : Files.Tree) (dir : Path) : Bool := files.isFile (dir.join fileName)

/-- The targets of the package in a directory. A manifest without a package has none. -/
def targetsIn (files : Files.Tree) (dir : Path) : List Target :=
  match files.readText (dir.join fileName) with
  | .error _ => []
  | .ok content =>
    match sectionValue content "package" "name" with
    | none => []
    | some package =>
      let libFile :=
        match sectionValue content "lib" "path" with
        | some p => dir.join p
        | none => (dir.join "src").join "lib.rs"
      let libName := (sectionValue content "lib" "name").getD package
      let mainFile := (dir.join "src").join "main.rs"
      let lib := if files.isFile libFile then [⟨package, pathName libName, .lib, dir, libFile⟩] else []
      let bin := if files.isFile mainFile then [⟨package, pathName package, .bin, dir, mainFile⟩] else []
      lib ++ bin

end TraitMock.Manifest
