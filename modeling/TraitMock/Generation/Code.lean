import TraitMock.Generation.ImportBlock

namespace TraitMock.Generation

/-- A line of generated code, or lines that are indented below others. -/
inductive Code where
  | line (text : String)
  /-- Lines one step further to the right. -/
  | inner (body : List Code)

namespace Code

/-- A line at a depth. An empty line is not indented. -/
def indented (depth : Nat) (text : String) : String :=
  if text = "" then "" else Text.times depth "    " ++ text

mutual

def lines (depth : Nat) : Code → List String
  | .line text => [indented depth text]
  | .inner body => linesOf (depth + 1) body

def linesOf (depth : Nat) : List Code → List String
  | [] => []
  | c :: rest => c.lines depth ++ linesOf depth rest

end

def blank : Code := .line ""

/-- A head with a body in braces; `tail` follows the closing brace. -/
def bracedThen (head : String) (body : List Code) (tail : String) : List Code :=
  [.line (head ++ " \x7b"), .inner body, .line ("\x7d" ++ tail)]

def braced (head : String) (body : List Code) : List Code := bracedThen head body ""

/-- The text of some code. -/
def text (code : List Code) : String := linesText (linesOf 0 code)

end Code

/-- A text in quotes, as it is. -/
def inQuotes (s : String) : String := "\"" ++ s ++ "\""

/-- Texts with commas between them. -/
def commas (l : List String) : String := ", ".intercalate l

end TraitMock.Generation
