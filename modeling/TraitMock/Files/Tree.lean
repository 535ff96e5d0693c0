import TraitMock.Files.Path
import TraitMock.Text.Utf8

namespace TraitMock.Files

/-- What stands at a place of the tree. -/
inductive Entry where
  | file (bytes : List UInt8)
  | directory
  deriving DecidableEq, Repr

/-- Why the system refuses an operation. -/
inductive Fault where
  | missing
  | alreadyThere
  | notADirectory
  | isADirectory
  | notText
  deriving DecidableEq, Repr

def Fault.message : Fault → String
  | .missing => "No such file or directory (os error 2)"
  | .alreadyThere => "File exists (os error 17)"
  | .notADirectory => "Not a directory (os error 20)"
  | .isADirectory => "Is a directory (os error 21)"
  | .notText => "stream did not contain valid UTF-8"

/-- The names that lead from the root to a place. -/
abbrev Place := List String

/-- A tree of files: the places below the root that hold something. -/
structure Tree where
  entries : List (Place × Entry)
  deriving Repr

namespace Tree

def empty : Tree := ⟨[]⟩

/-- What stands at a place. The root is a directory. -/
def entry? (t : Tree) (place : Place) : Option Entry :=
  if place = [] then some .directory else t.entries.lookup place

/-- Puts an entry at a place. -/
def set (t : Tree) (place : Place) (e : Entry) : Tree :=
  if place = [] then t else ⟨(place, e) :: t.entries.filter fun x => x.1 ≠ place⟩

/-- Makes the directories of a place that are not there yet, from the root on; `before` are there. -/
def setDirectories (t : Tree) (before : Place) : List String → Tree
  | [] => t
  | name :: rest =>
    let here := before ++ [name]
    (if (t.entry? here).isSome then t else t.set here .directory).setDirectories here rest

/-- Puts an entry at a place, and directories above it. -/
def put (t : Tree) (place : Place) (e : Entry) : Tree :=
  (t.setDirectories [] place.dropLast).set place e

/-- Follows the slots of a path from a place that is there. -/
def follow (t : Tree) (here : Place) : List String → Except Fault Place
  | [] => .ok here
  | slot :: rest =>
    if t.entry? here ≠ some .directory then .error .notADirectory
    else if Path.isIdle slot then t.follow here rest
    else if slot = ".." then t.follow here.dropLast rest
    else if (t.entry? (here ++ [slot])).isSome then t.follow (here ++ [slot]) rest
    else .error .missing

/-- The place that an absolute path leads to. -/
def locate (t : Tree) (p : Path) : Except Fault Place :=
  if p.isAbsolute then t.follow [] (p.slots.drop 1) else .error .missing

/-- What stands at the end of a path. -/
def at? (t : Tree) (p : Path) : Option Entry :=
  match t.locate p with
  | .ok place => t.entry? place
  | .error _ => none

def has (t : Tree) (p : Path) : Bool := (t.at? p).isSome

def isDirectory (t : Tree) (p : Path) : Bool := t.at? p == some .directory

def isFile (t : Tree) (p : Path) : Bool := t.has p && !t.isDirectory p

/-- The absolute path without idle slots and `..` that leads to the same place. -/
def canonical (t : Tree) (p : Path) : Except Fault Path := Path.ofNames <$> t.locate p

/-- The canonical path, or the path itself if it leads nowhere. -/
def canonicalOr (t : Tree) (p : Path) : Path :=
  match t.canonical p with
  | .ok q => q
  | .error _ => p

/-- The bytes of a file. -/
def readBytes (t : Tree) (p : Path) : Except Fault (List UInt8) := do
  let place ← t.locate p
  match t.entry? place with
  | some (.file bytes) => pure bytes
  | _ => .error .isADirectory

/-- The text of a file. -/
def readText (t : Tree) (p : Path) : Except Fault String := do
  match Text.decodeUtf8 (← t.readBytes p) with
  | .ok s => pure s
  | .error _ => .error .notText

/-- The number of bytes in an entry. -/
def entrySize : Entry → Nat
  | .file bytes => bytes.length
  | .directory => 0

/-- The number of bytes in all files. -/
def size (t : Tree) : Nat := t.entries.foldr (fun x n => entrySize x.2 + n) 0

/-- The entry of a place that lies directly in `dir`, with its name. -/
def childOf (dir : Place) (x : Place × Entry) : Option (String × Entry) :=
  match x.1.getLast? with
  | some name => if x.1.dropLast = dir then some (name, x.2) else none
  | none => none

/-- The names in a directory with what they stand for, ordered by name. -/
def children (t : Tree) (dir : Place) : List (String × Entry) :=
  (t.entries.filterMap (childOf dir)).mergeSort fun a b => a.1 ≤ b.1

/-- Makes a directory at the end of a path. -/
def makeDirectory (t : Tree) (p : Path) : Except Fault Tree :=
  match t.locate p, p.parent?, p.fileName? with
  | .ok _, _, _ => .error .alreadyThere
  | .error _, some up, some name =>
    match t.locate up with
    | .error f => .error f
    | .ok place =>
      if t.entry? place = some .directory then
        if (t.entry? (place ++ [name])).isSome then .error .alreadyThere
        else .ok (t.set (place ++ [name]) .directory)
      else .error .notADirectory
  | .error f, _, _ => .error f

/-- Makes the directories that the given paths name; each but the last lies in the next. Stops as soon as one
is there. -/
def makeAll (t : Tree) : List Path → Except Fault Tree
  | [] => .ok t
  | p :: above =>
    if p.text = "" then .ok t
    else
      match t.makeDirectory p with
      | .ok t' => .ok t'
      | .error .missing =>
        match t.makeAll above with
        | .error f => .error f
        | .ok t' =>
          match t'.makeDirectory p with
          | .ok t'' => .ok t''
          | .error f => if t'.isDirectory p then .ok t' else .error f
      | .error f => if t.isDirectory p then .ok t else .error f

/-- Makes a directory and those above it that are not there yet. -/
def makeDirectories (t : Tree) (p : Path) : Except Fault Tree := t.makeAll p.ancestors

/-- Whether a text ends like the path of a directory. -/
def namesDirectory (p : Path) : Bool :=
  match p.slots.getLast? with
  | some slot => Path.isIdle slot
  | none => true

/-- Writes a file: a new one, or in place of what was there. -/
def writeBytes (t : Tree) (p : Path) (bytes : List UInt8) : Except Fault Tree :=
  match t.locate p with
  | .ok place =>
    if t.entry? place = some .directory then .error .isADirectory else .ok (t.set place (.file bytes))
  | .error f =>
    match p.parent?, p.fileName? with
    | some up, some name =>
      match t.locate up with
      | .error g => .error g
      | .ok place =>
        if t.entry? place = some .directory then
          if (t.entry? (place ++ [name])).isSome then .error f
          else if namesDirectory p then .error .isADirectory
          else .ok (t.set (place ++ [name]) (.file bytes))
        else .error .notADirectory
    | _, _ => .error f

def writeText (t : Tree) (p : Path) (s : String) : Except Fault Tree := t.writeBytes p (Text.encodeUtf8 s)

end Tree

end TraitMock.Files
