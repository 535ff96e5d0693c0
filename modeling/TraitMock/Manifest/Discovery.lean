import TraitMock.Manifest.Ignore
import TraitMock.Manifest.Target

namespace TraitMock.Manifest

open Files (Tree Place Entry)

/-- The nearest directory, from `dir` upwards, that holds a manifest. -/
def enclosing? (files : Tree) (dir : Path) : Option Path := dir.ancestors.find? (isPackage files)

/-- Whether a manifest opens a workspace. -/
def opensWorkspace (content : String) : Bool :=
  (Text.linesOf content.toList).any fun line => Text.trimChars line == "[workspace]".toList

/-- The nearest directory, from `dir` upwards, whose manifest opens a workspace, with that manifest. -/
def workspaceAround (files : Tree) (dir : Path) : Option (Path × String) :=
  dir.ancestors.findSome? fun d =>
    match files.readText (d.join fileName) with
    | .ok content => if opensWorkspace content then some (d, content) else none
    | .error _ => none

/-- The names in the directory at the end of a path, with what they stand for. -/
def childrenOf (files : Tree) (dir : Path) : List (String × Entry) :=
  match files.locate dir with
  | .ok place => if files.entry? place = some .directory then files.children place else []
  | .error _ => []

/-- A directory that the expansion of a member pattern does not enter. -/
def isSkipped (name : String) : Bool := name = "target" || Text.beginsWith name "."

/-- The packages below a directory, at most `depth` levels down, a directory before those below it. -/
def packagesBelow (files : Tree) : Nat → Path → List Path
  | 0, _ => []
  | depth + 1, dir =>
    (childrenOf files dir).flatMap fun (name, entry) =>
      if entry = .directory && !isSkipped name then
        let sub := dir.join name
        (if isPackage files sub then [sub] else []) ++ packagesBelow files depth sub
      else []

/-- Removes the slashes at the end of a text. -/
def dropSlashes (cs : List Char) : List Char := (cs.reverse.dropWhile (· = '/')).reverse

/-- What stands in front of `ending` in a text that ends with it. -/
def beforeEnd? (cs ending : List Char) : Option String :=
  if ending.isSuffixOf cs then some (String.ofList (cs.take (cs.length - ending.length))) else none

/-- The packages that one member of a workspace names: a directory, or all packages directly or anywhere below
a directory. -/
def expandMember (files : Tree) (root : Path) (pattern : String) : List Path :=
  let clean := dropSlashes pattern.toList
  match beforeEnd? clean "/**".toList with
  | some dir => packagesBelow files (files.entries.length + 1) (root.join dir)
  | none =>
    match beforeEnd? clean "/*".toList with
    | some dir =>
      ((childrenOf files (root.join dir)).map fun x => (root.join dir).join x.1).filter (isPackage files)
    | none =>
      let dir := root.join (String.ofList clean)
      if isPackage files dir then [dir] else []

/-- The ignore rules that one directory brings in. -/
structure IgnoreLevel where
  place : Place
  general : List Ignore.Rule
  versioned : List Ignore.Rule
  excluded : List Ignore.Rule
  /-- Whether a repository begins here. -/
  isRepository : Bool

/-- The rules of an ignore file, none if it cannot be read. -/
def rulesAt (files : Tree) (place : Place) : List Ignore.Rule :=
  match files.entry? place with
  | some (.file bytes) =>
    match Text.decodeUtf8 bytes with
    | .ok s => Ignore.parse s
    | .error _ => []
  | _ => []

def ignoreLevel (files : Tree) (place : Place) : IgnoreLevel where
  place := place
  general := rulesAt files (place ++ [".ignore"])
  versioned := rulesAt files (place ++ [".gitignore"])
  excluded := rulesAt files (place ++ [".git", "info", "exclude"])
  isRepository := (files.entry? (place ++ [".git"])).isSome

/-- The levels of a place and of those above it, the innermost first. -/
def ignoreLevels (files : Tree) (place : Place) : List IgnoreLevel :=
  (List.range (place.length + 1)).reverse.map fun n => ignoreLevel files (place.take n)

/-- What one kind of ignore file says about a place: the innermost level that says something decides. -/
def levelsVerdict (rules : IgnoreLevel → List Ignore.Rule) (place : Place) (isDirectory : Bool) :
    List IgnoreLevel → Ignore.Verdict
  | [] => .silent
  | level :: rest =>
    let below := "/".intercalate (place.drop level.place.length)
    (Ignore.verdict (rules level) isDirectory below.toList).orElse (levelsVerdict rules place isDirectory rest)

/-- The levels up to the one where a repository begins; none outside of a repository. -/
def repositoryLevels (levels : List IgnoreLevel) : List IgnoreLevel :=
  match levels.findIdx? (·.isRepository) with
  | some n => levels.take (n + 1)
  | none => []

/-- What all rules say about a place. The files of the version control count only inside of a repository. -/
def placeVerdict (levels : List IgnoreLevel) (place : Place) (isDirectory : Bool) : Ignore.Verdict :=
  let inside := repositoryLevels levels
  (levelsVerdict (·.general) place isDirectory levels).orElse
    ((levelsVerdict (·.versioned) place isDirectory inside).orElse
      (levelsVerdict (·.excluded) place isDirectory inside))

/-- Whether a walk passes an entry over: an ignored one, a hidden one that no rule keeps, or a `target`. -/
def isPassedOver (levels : List IgnoreLevel) (place : Place) (name : String) (isDirectory : Bool) : Bool :=
  match placeVerdict levels place isDirectory with
  | .ignored => true
  | .kept => name = "target"
  | .silent => Text.beginsWith name "." || name = "target"

/-- The packages that a walk of at most `depth` levels meets. -/
def walkFrom (files : Tree) : Nat → List IgnoreLevel → Path → Place → List Path
  | 0, _, _, _ => []
  | depth + 1, levels, dir, place =>
    (files.children place).flatMap fun (name, entry) =>
      let here := place ++ [name]
      if isPassedOver levels here name (entry = .directory) then []
      else if entry = .directory then
        walkFrom files depth (ignoreLevel files here :: levels) (dir.join name) here
      else if name = fileName then ((dir.join name).parent?).toList
      else []

/-- Whether the texts of some steps come before those of others or are the same, step by step. -/
def stepsBefore : List Path.Step → List Path.Step → Bool
  | [], _ => true
  | _ :: _, [] => false
  | s :: rest, t :: more => s.text < t.text || (s.text == t.text && stepsBefore rest more)

/-- Whether a path comes before another or is the same. -/
def isBefore (p q : Path) : Bool := stepsBefore p.steps q.steps

/-- The packages at and below a directory, in the order of their paths. -/
def walk (files : Tree) (dir : Path) : List Path :=
  match files.locate dir with
  | .error _ => []
  | .ok place =>
    if files.entry? place = some .directory then
      (walkFrom files (files.entries.length + 1) (ignoreLevels files place) dir place).mergeSort isBefore
    else []

/-- Keeps the first of those paths that take the same steps. -/
def distinct (paths : List Path) : List Path :=
  (paths.foldl (fun kept p => if kept.any (Path.same p) then kept else p :: kept) []).reverse

/-- The targets that can be found from a directory, nearest packages first. -/
def discover (files : Tree) (dir : Path) : List Target :=
  let near := (enclosing? files dir).toList
  let members :=
    match workspaceAround files dir with
    | none => []
    | some (root, content) =>
      root :: ((stringArray content "members").getD []).flatMap (expandMember files root)
  (distinct (near ++ members ++ walk files dir)).flatMap (targetsIn files)

end TraitMock.Manifest
