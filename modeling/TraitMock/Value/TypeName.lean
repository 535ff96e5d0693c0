import TraitMock.Text.Lines

namespace TraitMock.TypeName

open Text

/-- A character that belongs to an identifier; every other character starts a new path. -/
def isIdentChar (c : Char) : Bool := isLetterOrNumber c || c == '_'

/-- Shortens what is left of a type name. `done` is what has been kept for good and `segment` the segment
being read, both reversed: a double colon drops the segment, and a character that belongs to no identifier
ends it. -/
def shortenFrom (done segment : List Char) : List Char → List Char
  | [] => (segment ++ done).reverse
  | [c] => (c :: segment ++ done).reverse
  | c :: d :: rest =>
    if c = ':' ∧ d = ':' then shortenFrom done [] rest
    else if isIdentChar c then shortenFrom done (c :: segment) (d :: rest)
    else shortenFrom (c :: segment ++ done) [] (d :: rest)

/-- The type name without module paths. -/
def short (full : String) : String := String.ofList (shortenFrom [] [] full.toList)

end TraitMock.TypeName
