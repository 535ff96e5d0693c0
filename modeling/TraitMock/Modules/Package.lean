import TraitMock.Manifest.Target
import TraitMock.Modules.File

namespace TraitMock

/-- A module that was found. -/
structure Package where
  crateName : String
  /-- The directory of the package that the module belongs to. -/
  directory : Path
  /-- The file that the module tree of its crate starts from. -/
  crateRoot : Path
  /-- The names that lead from the root of the crate to the module. -/
  modulePath : List String
  /-- The file that holds the module. -/
  file : Path
  deriving DecidableEq, Repr

namespace Package

/-- The module path that begins with the name of the crate. -/
def spec (p : Package) : String := Text.joinPath (p.crateName :: p.modulePath)

/-- The directory of the file. -/
def fileDirectory (p : Package) : Path := p.file.parent?.getD ⟨""⟩

/-- The name that stands in front of the items of the module elsewhere. -/
def ident (p : Package) : String := p.modulePath.getLast?.getD p.crateName

def isCrateRoot (p : Package) : Bool := p.modulePath.isEmpty

def sameCrate (p q : Package) : Bool := p.crateName = q.crateName && p.directory.same q.directory

/-- The first segment of paths into the crate of `p` that are written in the crate of `q`. -/
def rootFrom (p q : Package) : String := if p.sameCrate q then "crate" else p.crateName

/-- The path of the module as it is written in the crate of `q`. -/
def pathFrom (p q : Package) : String := Text.joinPath (p.rootFrom q :: p.modulePath)

/-- The directory that holds the modules below this one. -/
def childDirectory (p : Package) : Path := Modules.childDirectory p.file

end Package

end TraitMock
