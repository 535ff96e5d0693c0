import TraitMock.Text.Lines

namespace TraitMock.Manifest

/-- Cuts a text at the first character `sep`, which belongs to neither part. -/
def cutAt (sep : Char) : List Char → Option (List Char × List Char)
  | [] => none
  | c :: rest =>
    if c = sep then some ([], rest)
    else
      match cutAt sep rest with
      | some (before, after) => some (c :: before, after)
      | none => none

/-- The key and the value of a line `key = value`, without the blanks around them. -/
def assignment? (line : List Char) : Option (List Char × List Char) :=
  match cutAt '=' line with
  | some (key, value) => some (Text.trimChars key, Text.trimChars value)
  | none => none

/-- The text of a value in double quotes: it ends before the next double quote. -/
def quotedText? : List Char → Option (List Char)
  | '"' :: rest => some (rest.takeWhile (· ≠ '"'))
  | _ => none

/-- The value of a key in a table, from the lines of the manifest; `inside` says whether they begin in that
table. The header is the whole line that opens the table. -/
def valueIn (header key : List Char) (inside : Bool) : List (List Char) → Option (List Char)
  | [] => none
  | line :: rest =>
    let line := Text.trimChars line
    if line.head? = some '[' then valueIn header key (line = header) rest
    else if inside then
      match assignment? line with
      | some (k, v) =>
        if k = key then
          match quotedText? v with
          | some s => some s
          | none => valueIn header key inside rest
        else valueIn header key inside rest
      | none => valueIn header key inside rest
    else valueIn header key inside rest

/-- The quoted value of `key` in the table `section` of a manifest. -/
def sectionValue (content sectionName key : String) : Option String :=
  (valueIn ("[" ++ sectionName ++ "]").toList key.toList false (Text.linesOf content.toList)).map String.ofList

/-- Removes the characters `c` at both ends of a text. -/
def stripChar (c : Char) (cs : List Char) : List Char :=
  ((cs.dropWhile (· = c)).reverse.dropWhile (· = c)).reverse

/-- One item of an array, without its blanks and quotes. -/
def itemText (part : List Char) : List Char := stripChar '\'' (stripChar '"' (Text.trimChars part))

/-- The items on one line of an array; the brackets at its ends belong to none. -/
def itemsOn (line : List Char) : List (List Char) :=
  let inner := ((line.dropWhile (· = '[')).reverse.dropWhile (· = ']')).reverse
  ((Text.splitAtChar ',' inner).map itemText).filter (· ≠ [])

/-- A line without its comment and the blanks around it. -/
def withoutComment (line : List Char) : List Char := Text.trimChars (line.takeWhile (· ≠ '#'))

/-- The items of an array of which some lines went before; it ends with a bracket, or with the manifest. -/
def restOfArray : List (List Char) → List (List Char)
  | [] => []
  | line :: rest =>
    let line := withoutComment line
    if line.getLast? = some ']' then itemsOn line else itemsOn line ++ restOfArray rest

/-- The items of the array that the first assignment to `key` gives, if it gives an array. -/
def arrayIn (key : List Char) : List (List Char) → Option (List (List Char))
  | [] => none
  | line :: rest =>
    match assignment? (withoutComment line) with
    | some (k, v) =>
      if k = key then
        if v.head? = some '[' then
          some (if v.getLast? = some ']' then itemsOn v else itemsOn v ++ restOfArray rest)
        else none
      else arrayIn key rest
    | none => arrayIn key rest

/-- The array of strings that a manifest gives to `key`, in whatever table. -/
def stringArray (content key : String) : Option (List String) :=
  (arrayIn key.toList (Text.linesOf content.toList)).map (·.map String.ofList)

end TraitMock.Manifest
