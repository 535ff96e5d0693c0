namespace TraitMock

/-- What stands around the parts of a compound datum. -/
structure Brackets where
  opening : String
  closing : String
  /-- Whether blanks separate the brackets from the parts on one line. -/
  padded : Bool := false
  /-- Whether a single part is followed by a comma on one line too. -/
  commaAfterOne : Bool := false
  deriving DecidableEq, Repr

/-- The written form of a datum. -/
inductive Written where
  /-- A text that is written as it is. -/
  | leaf (text : String)
  /-- A part with a label in front, the name of a field or the key of an entry. -/
  | labelled (label : String) (part : Written)
  | block (brackets : Brackets) (parts : List Written)
  deriving Repr

namespace Written

mutual

/-- The text on one line. -/
def compact : Written → String
  | .leaf text => text
  | .labelled label part => label ++ ": " ++ part.compact
  | .block b parts =>
    match compactAll parts with
    | [] => b.opening ++ b.closing
    | texts =>
      let gap := if b.padded then " " else ""
      let comma := if b.commaAfterOne && texts.length == 1 then "," else ""
      b.opening ++ gap ++ ", ".intercalate texts ++ comma ++ gap ++ b.closing

/-- The texts of several parts, each on one line. -/
def compactAll : List Written → List String
  | [] => []
  | w :: rest => w.compact :: compactAll rest

end

/-- Puts a label in front of the first of several lines. -/
def labelFirst (label : String) : List String → List String
  | [] => [label]
  | line :: rest => (label ++ line) :: rest

/-- Puts a comma behind the last of several lines and moves all of them in. -/
def indentPart (ls : List String) : List String :=
  ((ls.dropLast ++ [ls.getLast?.getD "" ++ ","]).map ("    " ++ ·))

mutual

/-- The lines of the spread text: every part of a compound datum starts a line of its own. -/
def spreadLines : Written → List String
  | .leaf text => [text]
  | .labelled label part => labelFirst (label ++ ": ") part.spreadLines
  | .block b parts =>
    match spreadAll parts with
    | [] => [b.opening ++ b.closing]
    | inner => b.opening :: inner ++ [b.closing]

/-- The lines of several parts, moved in. -/
def spreadAll : List Written → List String
  | [] => []
  | w :: rest => indentPart w.spreadLines ++ spreadAll rest

end

/-- The text spread over lines. -/
def spread (w : Written) : String := "\n".intercalate w.spreadLines

/-- A sequence in square brackets. -/
def sequence (parts : List Written) : Written := .block ⟨"[", "]", false, false⟩ parts

/-- A set in braces. -/
def set (parts : List Written) : Written := .block ⟨"\x7b", "\x7d", false, false⟩ parts

/-- A tuple; one of a single part keeps a comma behind it. -/
def tuple (parts : List Written) : Written := .block ⟨"(", ")", false, true⟩ parts

/-- A name with its parts in parentheses. -/
def call (name : String) (parts : List Written) : Written := .block ⟨name ++ "(", ")", false, false⟩ parts

/-- A name with its labelled fields in braces. -/
def record (name : String) (fields : List (String × Written)) : Written :=
  .block ⟨name ++ " \x7b", "\x7d", true, false⟩ (fields.map fun f => .labelled f.1 f.2)

end Written

end TraitMock
