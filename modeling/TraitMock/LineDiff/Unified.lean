import TraitMock.LineDiff.Compaction

namespace TraitMock.LineDiff

/-- Keeps at most the last `context` of the equal lines that an operation is about. -/
def keepEnd (context : Nat) (o : Operation) : Operation := o.dropFirst (o.length - context)

/-- Keeps at most the first `context` of the equal lines that an operation is about. -/
def keepStart (context : Nat) (o : Operation) : Operation := o.dropLast (o.length - context)

/-- Shortens equal lines at the start of a script. -/
def trimStart (context : Nat) : List Operation → List Operation
  | [] => []
  | o :: rest => (if o.kind = .equal then keepEnd context o else o) :: rest

/-- Shortens equal lines at the end of a script. -/
def trimEnd (context : Nat) : List Operation → List Operation
  | [] => []
  | [o] => [if o.kind = .equal then keepStart context o else o]
  | o :: rest => o :: trimEnd context rest

/-- A group of operations that holds no change. -/
def isIdle : List Operation → Bool
  | [] => true
  | [o] => o.kind == .equal
  | _ => false

/-- Cuts a script within each stretch of more equal lines than two contexts. `group` is the group being read,
reversed. -/
def groupsFrom (context : Nat) (group : List Operation) : List Operation → List (List Operation)
  | [] => if isIdle group then [] else [group.reverse]
  | o :: rest =>
    if o.kind = .equal ∧ context * 2 < o.length then
      (keepStart context o :: group).reverse :: groupsFrom context [keepEnd context o] rest
    else groupsFrom context (o :: group) rest

/-- The groups of operations that become hunks. -/
def groups (context : Nat) (ops : List Operation) : List (List Operation) :=
  if ops.isEmpty then []
  else groupsFrom context [] (trimEnd context (trimStart context ops))

/-- A range of lines in the header of a hunk; an empty one stands behind the line before it. -/
def rangeText (first last : Nat) : String :=
  let length := last - first
  if length = 1 then toString (first + 1)
  else if length = 0 then toString first ++ "," ++ toString length
  else toString (first + 1) ++ "," ++ toString length

/-- Whether a line has an end. -/
def hasEnd (line : String) : Bool := line.endsWith "\n" || line.endsWith "\r"

/-- A line of a hunk, with a hint on a line without an end if that is asked for. -/
def changeText (hint : Bool) (sign line : String) : String :=
  sign ++ line ++
    (if hasEnd line then "" else (if hint then "\n\\ No newline at end of file" else "") ++ "\n")

/-- The lines from `first` on. -/
def slice (ls : Array String) (first length : Nat) : List String := (ls.toList.drop first).take length

/-- The lines of an operation with their signs. -/
def changes (old new : Array String) (o : Operation) : List (String × String) :=
  match o.kind with
  | .equal => (slice old o.oldStart o.oldLength).map (" ", ·)
  | _ =>
    (slice old o.oldStart o.oldLength).map ("-", ·) ++ (slice new o.newStart o.newLength).map ("+", ·)

/-- The text of a hunk; one without lines has none. -/
def hunkText (old new : Array String) (hint : Bool) (ops : List Operation) : String :=
  match ops.flatMap (changes old new), ops.head?, ops.getLast? with
  | [], _, _ => ""
  | lines, some first, some last =>
    "@@ -" ++ rangeText first.oldStart last.oldEnd ++ " +" ++ rangeText first.newStart last.newEnd ++
      " @@\n" ++ String.join (lines.map fun l => changeText hint l.1 l.2)
  | _, _, _ => ""

/-- The hunks between two texts. -/
def hunks (a b : String) (context : Nat) (hint : Bool) : List String :=
  let old := linesWithEnds a
  let new := linesWithEnds b
  (groups context (operations old new)).map (hunkText old new hint)

/-- A unified diff under a header with two names; it is empty when the texts are equal. -/
def unified (fromName toName a b : String) (context : Nat) : String :=
  match hunks a b context true with
  | [] => ""
  | hs => "--- " ++ fromName ++ "\n+++ " ++ toName ++ "\n" ++ String.join hs

/-- The hunks alone; a last line without an end is ended without a hint. -/
def unifiedHunks (a b : String) (context : Nat) : String := String.join (hunks a b context false)

end TraitMock.LineDiff
