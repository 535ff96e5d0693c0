import TraitMock.Syntax.Item

namespace TraitMock

/-- What follows the last place where a part stands in a text. -/
def afterLast? (part : List Char) : List Char → Option (List Char)
  | [] => none
  | c :: rest =>
    match afterLast? part rest with
    | some after => some after
    | none => (part.isPrefixOf? (c :: rest))

/-- A text without the brackets that close at its end. -/
def dropClosing (cs : List Char) : List Char := (cs.reverse.dropWhile (· = ']')).reverse

/-- The attribute that an implementation repeats for an attribute of a trait. -/
def asyncAttribute? (text : String) : Option String :=
  (afterLast? "async_trait".toList (Text.compact text).toList).map fun rest =>
    "#[async_trait::async_trait" ++ String.ofList (dropClosing rest) ++ "]"

/-- The attributes directly in front of the first entry, the nearest first. The entries are given from the last
to the first; a comment or another item ends the search. -/
def attributesBefore : List Syntax.Entry → List String
  | e :: before :: rest =>
    if e.commented then []
    else
      match before.item with
      | .attribute text => text :: attributesBefore (before :: rest)
      | _ => []
  | _ => []

/-- The trait of a name together with the attribute that implementations of it repeat. `before` holds the
entries in front, from the last to the first. -/
def findTrait (name : String) (before : List Syntax.Entry) :
    List Syntax.Entry → Option (Syntax.TraitDecl × Option String)
  | [] => none
  | e :: rest =>
    match e.item with
    | .trait t =>
      if t.name = name then some (t, (attributesBefore (e :: before)).findSome? asyncAttribute?)
      else findTrait name (e :: before) rest
    | _ => findTrait name (e :: before) rest

end TraitMock
