import TraitMock.Text.Lines

namespace TraitMock

/-- A path, as it is written. Two slashes in a row, a slash at the end and a dot between slashes take no step, so several
    texts may name the same steps. -/
structure Path where
  text : String
  deriving DecidableEq, Repr

namespace Path

/-- One step of a path. -/
inductive Step where
  | root
  | here
  | up
  | name (s : String)
  deriving DecidableEq, Repr

/-- What stands between the slashes of the text. -/
def slots (p : Path) : List String := (Text.splitAtChar '/' p.text.toList).map String.ofList

/-- The path that has the given slots. The single empty slot that is left of an absolute path is its root. -/
def ofSlots (l : List String) : Path := ⟨if l = [""] then "/" else "/".intercalate l⟩

/-- A slot that takes no step unless it is the first one. -/
def isIdle (slot : String) : Bool := slot = "" || slot = "."

/-- The step of a slot. -/
def stepOf (slot : String) : Step := if slot = ".." then .up else .name slot

/-- The steps of a path. -/
def steps (p : Path) : List Step :=
  match p.slots with
  | [] => []
  | first :: rest =>
    let start :=
      if p.text = "" then []
      else if first = "" then [Step.root]
      else if first = "." then [Step.here]
      else [stepOf first]
    start ++ (rest.filter fun slot => !isIdle slot).map stepOf

/-- Whether two paths take the same steps. -/
def same (p q : Path) : Bool := p.steps == q.steps

/-- Whether a path begins at the root. -/
def isAbsolute (p : Path) : Bool := Text.beginsWith p.text "/"

/-- Removes idle slots from the end of a path whose slots are given from the last to the first. -/
def settle : List String → List String
  | [] => []
  | [first] => [first]
  | slot :: next :: rest => if isIdle slot then settle (next :: rest) else slot :: next :: rest

/-- The slots from the last step back to the first. -/
def back (p : Path) : List String := settle p.slots.reverse

/-- The path without its last step. The root and the empty path have none to lose. -/
def parent? (p : Path) : Option Path :=
  match p.back with
  | [] => none
  | [first] => if first = "" then none else some ⟨""⟩
  | _ :: rest => some (ofSlots (settle rest).reverse)

/-- The name that a path ends with, if its last step is one. -/
def fileName? (p : Path) : Option String :=
  match p.back with
  | [] => none
  | [first] => if first = "" || first = "." || first = ".." then none else some first
  | slot :: _ => if slot = ".." then none else some slot

/-- What stands before the last dot of a file name; a dot in front is part of the name. -/
def stemOf (name : String) : String :=
  match (name.toList.reverse.dropWhile (· ≠ '.')) with
  | [] => name
  | _ :: before => if before = [] then name else String.ofList before.reverse

/-- The file name without its ending. -/
def fileStem? (p : Path) : Option String := p.fileName?.map stemOf

/-- Replaces the ending of the file name, or adds one. -/
def withExtension (p : Path) (ending : String) : Path :=
  match p.fileStem? with
  | none => p
  | some stem => ofSlots ((stem ++ "." ++ ending) :: p.back.drop 1).reverse

/-- The path that `rel` names from `base` on. An absolute path stands for itself. -/
def join (base : Path) (rel : String) : Path :=
  if Text.beginsWith rel "/" || base.text = "" then ⟨rel⟩
  else if base.text.toList.getLast? = some '/' then ⟨base.text ++ rel⟩
  else ⟨base.text ++ "/" ++ rel⟩

/-- Whether the steps of `p` begin with those of `start`. -/
def startsWith (p start : Path) : Bool := start.steps.isPrefixOf p.steps

/-- At most `n` paths: the path itself, its parent, and so on. -/
def ancestorsUpTo : Nat → Path → List Path
  | 0, _ => []
  | n + 1, p =>
    match p.parent? with
    | none => [p]
    | some up => p :: ancestorsUpTo n up

/-- The path itself, its parent, and so on up to the path that has none. -/
def ancestors (p : Path) : List Path := ancestorsUpTo (p.slots.length + 1) p

/-- The absolute path of the given names. -/
def ofNames (names : List String) : Path := ofSlots ("" :: names)

/-- The text of a step. -/
def Step.text : Step → String
  | .root => "/"
  | .here => "."
  | .up => ".."
  | .name s => s

end Path

end TraitMock
