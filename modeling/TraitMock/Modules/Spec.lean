import TraitMock.Generation.Error

namespace TraitMock.Modules

/-- Whether a text is a name: a letter or an underscore, then letters, digits and underscores, but not a lone
underscore. The mark `r#` may stand in front. -/
def isIdentifier (cs : List Char) : Bool :=
  let body := (['r', '#'].isPrefixOf? cs).getD cs
  match body with
  | [] => false
  | c :: rest =>
    (c = '_' || Text.isLetter c) && body ≠ ['_'] && rest.all fun d => d = '_' || Text.isLetterOrNumber d

/-- The names that lead relative to a module, which stand at the start of a path only. -/
def relativeNames : List String := ["crate", "self", "super"]

/-- Whether the segments of a module path are well-formed: names, of which the first is not `self` or `super`,
and no other one is relative. -/
def areSegments : List String → Bool
  | [] => false
  | first :: rest =>
    isIdentifier first.toList && first ≠ "self" && first ≠ "super" &&
      rest.all fun s => isIdentifier s.toList && !relativeNames.contains s

/-- The segments of a module path. Colons may stand in front, and blanks around a segment. -/
def parseSpec (spec : String) : Except GenerationError (List String) :=
  let body := (Text.afterStart? spec "::").getD spec
  let segs := (Text.segments body).map Text.trim
  if areSegments segs then .ok segs else .error (.invalidSpec spec)

end TraitMock.Modules
