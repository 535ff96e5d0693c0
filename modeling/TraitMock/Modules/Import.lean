import TraitMock.Syntax.Item

namespace TraitMock

/-- A path that is brought into scope, perhaps under another name. -/
structure Import where
  path : String
  newName : Option String := none
  deriving DecidableEq, Repr

/-- Whether a path begins in the standard library. -/
def isStandardRoot (root : String) : Bool := root = "std" || root = "core" || root = "alloc"

namespace Import

/-- The name that is bound. -/
def name (i : Import) : String :=
  match i.newName with
  | some a => a
  | none => Text.lastSegment i.path

/-- The first segment of the path. -/
def root (i : Import) : String := (Text.segments i.path).head?.getD i.path

def isStandard (i : Import) : Bool := isStandardRoot i.root

/-- The import as it is written between `use` and the semicolon. -/
def text (i : Import) : String :=
  match i.newName with
  | some a => i.path ++ " as " ++ a
  | none => i.path

/-- The import as a declaration. -/
def render (i : Import) : String := "use " ++ i.text ++ ";"

/-- Whether a new name comes before another: none comes first. -/
def newNameBefore : Option String → Option String → Bool
  | none, some _ => true
  | some a, some b => a < b
  | _, none => false

/-- Whether an import comes before another: by path, then by new name. -/
def before (i j : Import) : Bool := i.path < j.path || (i.path == j.path && newNameBefore i.newName j.newName)

end Import

/-- A set of imports, in order. -/
structure ImportSet where
  toList : List Import := []
  deriving DecidableEq, Repr

namespace ImportSet

/-- Puts an import at its place among others, unless it is there. -/
def insertInto (i : Import) : List Import → List Import
  | [] => [i]
  | j :: rest =>
    if i = j then j :: rest
    else if i.before j then i :: j :: rest
    else j :: insertInto i rest

def insert (s : ImportSet) (i : Import) : ImportSet := ⟨insertInto i s.toList⟩

def ofList (l : List Import) : ImportSet := l.foldl insert {}

end ImportSet

/-- What one leaf of an import declaration brings into scope: an item, or all items of a module. -/
structure Binding where
  item : Import
  isGlob : Bool
  deriving DecidableEq, Repr

namespace Binding

/-- A path that continues another one. -/
def joined (start path : String) : String :=
  if start = "" then path else if path = "" then start else start ++ "::" ++ path

/-- The path of the module that a path ending in `self` stands for. -/
def withoutSelf (path : String) : String :=
  let segs := Text.segments path
  if segs.getLast? = some "self" then Text.joinPath segs.dropLast else path

mutual

/-- The bindings of a tree that stands behind the path `start`, in order. -/
def ofTree (start : String) : Syntax.UseTree → List Binding
  | .itself => [⟨⟨if start = "" then "self" else start, none⟩, false⟩]
  | .path p => [⟨⟨joined start p, none⟩, false⟩]
  | .renamed p a => [⟨⟨withoutSelf (joined start p), some a⟩, false⟩]
  | .glob p => [⟨⟨joined start p, none⟩, true⟩]
  | .group p trees => ofTrees (joined start p) trees

def ofTrees (start : String) : List Syntax.UseTree → List Binding
  | [] => []
  | t :: rest => ofTree start t ++ ofTrees start rest

end

/-- The bindings of the declarations at the top of a file, in order. -/
def ofEntries (entries : List Syntax.Entry) : List Binding :=
  entries.flatMap fun e =>
    match e.item with
    | .importDecl tree => ofTree "" tree
    | _ => []

end Binding

end TraitMock
