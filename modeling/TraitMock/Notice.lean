import TraitMock.Text.Lines

namespace TraitMock

/-- A failure message: a header, right-aligned rows of a key and a value, and free lines. The column of the keys is as
    wide as the longest key has bytes, so that it is wide enough for every key whatever its characters are. -/
structure Notice where
  header : String
  rows : List (String × String) := []
  lines : List String := []
  deriving DecidableEq, Repr

namespace Notice

/-- The headers of the failures that a mock reports. -/
def unexpectedCall : String := "[mock] unexpected method call"
def tooManyCalls : String := "[mock] too many method calls"
def tooFewCalls : String := "[mock] too few method calls"
def callNotFound : String := "[mock] method call not found"
def neverCalled : String := "[mock] method never called"
def prerequisitesNotMet : String := "[mock] method call prerequisites not met"
def expectationNotFound : String := "[mock] expectation not found"

def row (n : Notice) (key value : String) : Notice := { n with rows := n.rows ++ [(key, value)] }

/-- Adds a line behind the rows. -/
def line (n : Notice) (text : String) : Notice := { n with lines := n.lines ++ [text] }

/-- The value of the first row with a key. -/
def get? (n : Notice) (key : String) : Option String := (n.rows.find? (·.1 == key)).map (·.2)

/-- Blanks that make up `width` characters together with `s`. -/
def padding (width : Nat) (s : String) : String := String.ofList (List.replicate (width - s.length) ' ')

/-- `s` moved to the right end of a column. -/
def padLeft (width : Nat) (s : String) : String := padding width s ++ s

/-- `s` at the left end of a column. -/
def padRight (width : Nat) (s : String) : String := s ++ padding width s

/-- The greatest number of bytes of the given texts. -/
def widest (texts : List String) : Nat := (texts.map String.utf8ByteSize).foldl max 0

/-- The width of the column of keys, with two blanks in front. -/
def keyWidth (n : Notice) : Nat := widest (n.rows.map (·.1)) + 2

/-- The lines of a row: the first line of the value behind the key, the others below it. -/
def rowLines (width : Nat) (key value : String) : List String :=
  let values := Text.lines value
  (padLeft width key ++ ": " ++ values.headD "") ::
    values.tail.map fun more => padLeft width "" ++ "  " ++ more

def allLines (n : Notice) : List String :=
  (n.header ++ ":") :: n.rows.flatMap (fun r => rowLines n.keyWidth r.1 r.2) ++ n.lines.map ("  " ++ ·)

def text (n : Notice) : String := Text.unlines n.allLines

end Notice

end TraitMock
