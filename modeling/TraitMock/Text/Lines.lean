import TraitMock.Text.CharClass

namespace TraitMock.Text

/-- Puts a character in front of the first of several parts. -/
def consFirst (c : Char) : List (List Char) → List (List Char)
  | [] => [[c]]
  | part :: rest => (c :: part) :: rest

/-- The parts between the line feeds of a text; one more than there are line feeds. -/
def splitLineFeeds : List Char → List (List Char)
  | [] => [[]]
  | c :: rest => if c = '\n' then [] :: splitLineFeeds rest else consFirst c (splitLineFeeds rest)

/-- Removes one carriage return from the end of a line. -/
def dropReturn (line : List Char) : List Char :=
  match line.getLast? with
  | some '\r' => line.dropLast
  | _ => line

/-- The lines of a text: a line ends with a line feed, which may follow a carriage return, and neither
belongs to it. What follows the last line feed is a line if it is not empty, and keeps its characters. -/
def linesOf (cs : List Char) : List (List Char) :=
  let parts := splitLineFeeds cs
  let last := parts.getLast?.getD []
  parts.dropLast.map dropReturn ++ (if last = [] then [] else [last])

/-- The lines of a string, see `linesOf`. -/
def lines (s : String) : List String := (linesOf s.toList).map String.ofList

/-- Writes every string on a line of its own, without an end of line after the last. -/
def unlines (ls : List String) : String := "\n".intercalate ls

/-- Removes the white space in front of a text. -/
def dropBlanks (cs : List Char) : List Char := cs.dropWhile isBlank

/-- Removes the white space at both ends of a text. -/
def trimChars (cs : List Char) : List Char := (dropBlanks (dropBlanks cs).reverse).reverse

/-- Removes the white space at both ends of a string. -/
def trim (s : String) : String := String.ofList (trimChars s.toList)

/-- The words of a text: its longest runs without white space. -/
def wordsOf : List Char → List (List Char)
  | [] => []
  | c :: rest =>
    if isBlank c then wordsOf rest
    else match rest with
      | [] => [[c]]
      | d :: _ => if isBlank d then [c] :: wordsOf rest else consFirst c (wordsOf rest)

/-- The words of a string, see `wordsOf`. -/
def words (s : String) : List String := (wordsOf s.toList).map String.ofList

/-- Replaces every run of white space by one blank and removes it at the ends. -/
def squash (s : String) : String := " ".intercalate (words s)

/-- Removes all white space. -/
def compact (s : String) : String := String.ofList (s.toList.filter fun c => !isBlank c)

/-- The parts between the double colons of a text, taken from the left. -/
def splitPath : List Char → List (List Char)
  | [] => [[]]
  | [c] => [[c]]
  | c :: d :: rest =>
    if c = ':' ∧ d = ':' then [] :: splitPath rest else consFirst c (splitPath (d :: rest))

/-- The segments of a path written with double colons. -/
def segments (s : String) : List String := (splitPath s.toList).map String.ofList

/-- Writes a path with double colons. -/
def joinPath (segs : List String) : String := "::".intercalate segs

/-- Drops double colons in front. -/
def dropColons : List Char → List Char
  | ':' :: ':' :: rest => dropColons rest
  | cs => cs

/-- A path without double colons in front. -/
def relativePath (s : String) : String := String.ofList (dropColons s.toList)

/-- The parts of a text between the characters `sep`. -/
def splitAtChar (sep : Char) : List Char → List (List Char)
  | [] => [[]]
  | c :: rest =>
    if c = sep then [] :: splitAtChar sep rest else consFirst c (splitAtChar sep rest)

/-- Whether `part` occurs in a text. -/
def containsChars (part : List Char) : List Char → Bool
  | [] => part.isEmpty
  | c :: rest => part.isPrefixOf (c :: rest) || containsChars part rest

/-- Whether `part` occurs in a string. -/
def contains (s part : String) : Bool := containsChars part.toList s.toList

/-- Whether a string begins with `start`. -/
def beginsWith (s start : String) : Bool := start.toList.isPrefixOf s.toList

/-- What follows `start` in a string that begins with it. -/
def afterStart? (s start : String) : Option String :=
  (start.toList.isPrefixOf? s.toList).map String.ofList

/-- The last of the parts between double colons, where the colons are taken from the right. -/
def lastSegment (s : String) : String :=
  let back := (splitPath s.toList.reverse).head?.getD []
  String.ofList back.reverse

/-- A string repeated. -/
def times (n : Nat) (s : String) : String := String.join (List.replicate n s)

end TraitMock.Text
