import TraitMock.Files.Tree

namespace TraitMock.Modules

/-- Whether a file stands for its directory. -/
def ownsDirectory (file : Path) : Bool :=
  match file.fileName? with
  | some name => ["lib.rs", "main.rs", "mod.rs"].contains name
  | none => false

/-- The directory that holds the modules below the module in a file. -/
def childDirectory (file : Path) : Path :=
  let dir := file.parent?.getD ⟨""⟩
  if ownsDirectory file then dir
  else
    match file.fileStem? with
    | some stem => dir.join stem
    | none => dir

/-- The file of the module `name` below a directory: `name.rs` if it is there, else `name/mod.rs` if that is. -/
def moduleFile (files : Files.Tree) (dir : Path) (name : String) : Path :=
  let flat := dir.join (name ++ ".rs")
  let nested := (dir.join name).join "mod.rs"
  if files.has flat then flat else if files.has nested then nested else flat

end TraitMock.Modules
