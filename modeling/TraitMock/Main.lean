import TraitMock.CommandLine.Execution

namespace TraitMock.Main

open Files (Place Tree)

/-- The absolute path of a place. -/
def pathOf (place : Place) : String := (Path.ofNames place).text

/-- The names in a directory, or none if it cannot be read. -/
def namesIn (place : Place) : IO (List String) := do
  let dir := (← IO.currentDir) / pathOf place
  try
    let entries ← dir.readDir
    pure (entries.toList.map (·.fileName))
  catch _ => pure []

/-- Whether what lies at a place is left out: what a build made, and the records of version control apart from
its ignore file. -/
def isLeftOut (place : Place) : Bool :=
  match place.dropWhile (· ≠ ".git") with
  | [] => place.getLast? = some "target"
  | inside => !inside.isPrefixOf [".git", "info", "exclude"]

/-- Reads a file or directory, with what lies below it, into a tree. -/
partial def readInto (t : Tree) (place : Place) : IO Tree := do
  if isLeftOut place then return t
  try
    let bytes ← IO.FS.readBinFile (pathOf place)
    pure (t.put place (.file bytes.toList))
  catch _ =>
    let names ← namesIn place
    names.foldlM (fun t name => readInto t (place ++ [name])) (t.put place .directory)

/-- The outermost of some directories, given from the inside to the outside, that looks like the root of a
project; the innermost if none does. -/
def projectRoot : List Place → IO (Option Place)
  | [] => pure none
  | place :: above => do
    match ← projectRoot above with
    | some root => pure (some root)
    | none => do
      let names ← namesIn place
      pure (if names.any ["Cargo.toml", ".git"].contains then some place else none)

/-- A place and the places above it. -/
def placesUp (place : Place) : List Place := (List.range (place.length + 1)).map fun n => place.take (place.length - n)

/-- Writes the entries of a tree that differ from another one. -/
def writeChanges (before after : Tree) : IO Unit := do
  for (place, entry) in after.entries do
    if before.entry? place != some entry then
      match entry with
      | .directory => IO.FS.createDirAll (pathOf place)
      | .file bytes => do
        IO.FS.createDirAll (pathOf place.dropLast)
        IO.FS.writeBinFile (pathOf place) ⟨bytes.toArray⟩

end TraitMock.Main

open TraitMock in
/-- Runs the command line. The packages of the workspace are looked for in the files. -/
def main (words : List String) : IO UInt32 := do
  let cwd := (← IO.currentDir).toString
  let here := (cwd.splitOn "/").filter (· ≠ "")
  let root := (← Main.projectRoot (Main.placesUp here)).getD here
  let files ← Main.readInto .empty root
  let testerAlias ← IO.getEnv "MOCKKIT_TESTER_ALIAS"
  let outcome := CommandLine.execute { files, cwd := ⟨cwd⟩, tool := .unused, testerAlias } words
  IO.print outcome.printed
  outcome.messages.forM IO.eprintln
  Main.writeChanges files outcome.files
  pure (UInt32.ofNat outcome.status)
