import TraitMock.Text.CharClass

namespace TraitMock.Generation

open Text (isLowercase isUppercase)

/-- Whether a word begins at an uppercase letter that stands between the given characters: behind a lowercase
letter or a digit, and behind an uppercase letter where a lowercase letter follows. -/
def beginsWord (prev next : Option Char) : Bool :=
  match prev with
  | none => false
  | some p =>
    if p = '_' then false
    else if isLowercase p || p.isDigit then true
    else if isUppercase p then
      match next with
      | some n => isLowercase n
      | none => false
    else false

/-- Writes a name in snake case; `prev` is the character before it. -/
def snakeFrom (prev : Option Char) : List Char → List Char
  | [] => []
  | c :: rest =>
    if isUppercase c then
      (if beginsWord prev rest.head? then ['_'] else []) ++ Text.lowercaseForm c ++ snakeFrom (some c) rest
    else c :: snakeFrom (some c) rest

/-- A name in lowercase letters, with an underscore in front of each word but the first. -/
def snakeCase (name : String) : String := String.ofList (snakeFrom none name.toList)

end TraitMock.Generation
