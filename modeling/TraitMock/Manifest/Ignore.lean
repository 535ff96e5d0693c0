import TraitMock.Text.Lines

namespace TraitMock.Manifest.Ignore

/-- A part of a pattern. -/
inductive Part where
  | char (c : Char)
  /-- One character of a segment. -/
  | any
  /-- Some characters of a segment. -/
  | many
  /-- One character, even a slash, inside or outside of the given ranges. -/
  | oneOf (negated : Bool) (ranges : List (Char × Char))
  /-- Any directories at the start. -/
  | anyStart
  /-- Any directories between two slashes. -/
  | anyBetween
  deriving DecidableEq, Repr

/-- The tails of a text behind its slashes. -/
def behindSlashes : List Char → List (List Char)
  | [] => []
  | c :: rest => if c = '/' then rest :: behindSlashes rest else behindSlashes rest

/-- The tails of a text that leave out only characters of its first segment. -/
def withinSegment : List Char → List (List Char)
  | [] => [[]]
  | c :: rest => (c :: rest) :: (if c = '/' then [] else withinSegment rest)

def inRanges (ranges : List (Char × Char)) (c : Char) : Bool := ranges.any fun r => r.1 ≤ c && c ≤ r.2

/-- Whether a pattern matches a whole path. -/
def isMatch : List Part → List Char → Bool
  | [], path => path.isEmpty
  | .char c :: rest, path =>
    match path with
    | [] => false
    | d :: path => c == d && isMatch rest path
  | .any :: rest, path =>
    match path with
    | [] => false
    | d :: path => d != '/' && isMatch rest path
  | .oneOf negated ranges :: rest, path =>
    match path with
    | [] => false
    | d :: path => inRanges ranges d != negated && isMatch rest path
  | .many :: rest, path => (withinSegment path).any (isMatch rest)
  | .anyStart :: rest, path => isMatch rest path || (behindSlashes path).any (isMatch rest)
  | .anyBetween :: rest, path =>
    match path with
    | [] => false
    | c :: path => c == '/' && (isMatch rest path || (behindSlashes path).any (isMatch rest))

/-- Reads the ranges of a bracket up to its end. `first` says whether nothing was read yet, so that a closing bracket
is a member, and `pending` whether the range in front, the first of `before`, waits for its end. -/
def readRanges (first pending : Bool) (before : List (Char × Char)) :
    List Char → Option (List (Char × Char) × List Char)
  | [] => none
  | c :: rest =>
    if c = ']' && !first then some (if pending then ('-', '-') :: before else before, rest)
    else if c = '-' && !first && !pending then readRanges false true before rest
    else
      match pending, before with
      | true, (start, _) :: others =>
        if c < start then none else readRanges false false ((start, c) :: others) rest
      | _, _ => readRanges false false ((c, c) :: before) rest

/-- Reads a bracket behind its opening. -/
def readBracket (cs : List Char) : Option (Part × List Char) :=
  let negated := cs.head? == some '!' || cs.head? == some '^'
  (readRanges true false [] (if negated then cs.tail else cs)).map fun (ranges, rest) => (.oneOf negated ranges, rest)

/-- Reads a pattern of at most `n` parts. `before` are the parts read so far, the last one first. -/
def readParts : Nat → List Part → List Char → Option (List Part)
  | 0, before, _ => some before.reverse
  | _ + 1, before, [] => some before.reverse
  | n + 1, before, '\\' :: rest =>
    match rest with
    | [] => none
    | c :: rest => readParts n (.char c :: before) rest
  | n + 1, before, '?' :: rest => readParts n (.any :: before) rest
  | n + 1, before, '[' :: rest =>
    match readBracket rest with
    | some (part, rest) => readParts n (part :: before) rest
    | none => none
  | n + 1, before, '*' :: rest =>
    match rest with
    | '*' :: rest =>
      match before, rest with
      | [], [] => readParts n [.anyStart] []
      | [], '/' :: rest => readParts n [.anyStart] rest
      | .anyStart :: _, [] => readParts n before []
      | .anyStart :: _, '/' :: rest => readParts n before rest
      | .anyBetween :: _, '/' :: rest => readParts n before rest
      | .char '/' :: up, '/' :: rest => readParts n (.anyBetween :: up) rest
      | _, rest => readParts n (.many :: .many :: before) rest
    | rest => readParts n (.many :: before) rest
  | n + 1, before, c :: rest => readParts n (.char c :: before) rest

/-- Every text of the first list in front of every text of the second. -/
def joinEach (xs ys : List (List Char)) : List (List Char) := xs.flatMap fun x => ys.map (x ++ ·)

mutual

/-- Reads up to the end, or with `inside` up to the comma or the closing brace of a choice, and gives the texts
that the choices in between leave. -/
def readChoices : Nat → Bool → List Char → Option (List (List Char) × List Char)
  | 0, _, _ => none
  | n + 1, inside, cs =>
    let before := fun (xs : List (List Char)) (rest : List Char) =>
      (readChoices n inside rest).map fun (ys, rest) => (joinEach xs ys, rest)
    match cs with
    | [] => if inside then none else some ([[]], [])
    | '\\' :: c :: rest => before [['\\', c]] rest
    | '[' :: rest =>
      match readBracket rest with
      | some (_, after) => before [cs.take (cs.length - after.length)] after
      | none => none
    | '\x7b' :: rest =>
      match readBranches n rest with
      | some (xs, rest) => before xs rest
      | none => none
    | '\x7d' :: rest => if inside then some ([[]], '\x7d' :: rest) else none
    | ',' :: rest => if inside then some ([[]], ',' :: rest) else before [[',']] rest
    | c :: rest => before [[c]] rest

/-- Reads the branches of a choice behind its opening brace up to the closing one. -/
def readBranches : Nat → List Char → Option (List (List Char) × List Char)
  | 0, _ => none
  | n + 1, cs =>
    match readChoices n true cs with
    | some (xs, ',' :: rest) => (readBranches n rest).map fun (ys, rest) => (xs ++ ys, rest)
    | some (xs, _ :: rest) => some (xs, rest)
    | _ => none

end

/-- Reads a pattern without choices. One that is nothing but any directories matches every path. -/
def parseBranch (cs : List Char) : Option (List Part) :=
  (readParts (cs.length + 1) [] cs).map fun parts => if parts = [.anyStart] then [.anyStart, .many] else parts

/-- Reads a pattern as the patterns that its choices leave. -/
def parsePattern (cs : List Char) : Option (List (List Part)) := do
  let (branches, _) ← readChoices (2 * cs.length + 2) false cs
  branches.mapM parseBranch

/-- One rule of an ignore file. -/
structure Rule where
  /-- The patterns, of which one has to match. -/
  patterns : List (List Part)
  /-- Whether the rule takes paths back in. -/
  keeps : Bool
  /-- Whether the rule speaks of directories only. -/
  directoriesOnly : Bool
  deriving Repr

/-- Removes the blanks at the end of a line unless the last of them is escaped. -/
def trimLine (line : List Char) : List Char :=
  if ['\\', ' '].isSuffixOf line then line else (Text.dropBlanks line.reverse).reverse

/-- Reads a rule without its mark in front. -/
def parseBody (keeps anchored : Bool) (body : List Char) : Option Rule :=
  let directoriesOnly := body.getLast? == some '/'
  let body := if directoriesOnly then body.dropLast else body
  let body := if directoriesOnly && body.getLast? == some '\\' then body.dropLast else body
  let body :=
    if anchored || body.contains '/' || ['*', '*', '/'].isPrefixOf body then body else '*' :: '*' :: '/' :: body
  let body := if ['/', '*', '*'].isSuffixOf body then body ++ ['/', '*'] else body
  (parsePattern body).map fun patterns => ⟨patterns, keeps, directoriesOnly⟩

/-- Drops a slash in front and says whether there was one. -/
def dropSlash : List Char → Bool × List Char
  | '/' :: rest => (true, rest)
  | rest => (false, rest)

/-- Reads one line of an ignore file; comments, empty lines and broken patterns are no rules. -/
def parseRule (line : List Char) : Option Rule :=
  match trimLine line with
  | [] => none
  | '#' :: _ => none
  | '\\' :: '!' :: rest => parseBody false false ('!' :: rest)
  | '\\' :: '#' :: rest => parseBody false false ('#' :: rest)
  | '!' :: rest => parseBody true (dropSlash rest).1 (dropSlash rest).2
  | body => parseBody false (dropSlash body).1 (dropSlash body).2

/-- The rules of an ignore file. -/
def parse (content : String) : List Rule := (Text.linesOf content.toList).filterMap parseRule

/-- What the rules of one file say about a path. -/
inductive Verdict where
  | silent
  | ignored
  | kept
  deriving DecidableEq, Repr

/-- The verdict of a file: that of its last rule that matches. -/
def verdict (rules : List Rule) (isDirectory : Bool) (path : List Char) : Verdict :=
  match rules.reverse.find? fun r => (!r.directoriesOnly || isDirectory) && r.patterns.any (isMatch · path) with
  | some r => if r.keeps then .kept else .ignored
  | none => .silent

/-- The first of two verdicts that says something. -/
def Verdict.orElse : Verdict → Verdict → Verdict
  | .silent, v => v
  | v, _ => v

end TraitMock.Manifest.Ignore
