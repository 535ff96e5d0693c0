import TraitMock.Syntax.Token

namespace TraitMock.Syntax

/-- Something that is read from the front of a list of tokens. -/
abbrev Reader := StateT (List Token) Option

namespace Reader

/-- The next token, which stays. -/
def peek? : Reader (Option Token) := fun ts => some (ts.head?, ts)

/-- Whether the next token is the mark `m`; it stays. -/
def isMark (m : String) : Reader Bool := fun ts =>
  match ts with
  | t :: _ => some (t.kind == .mark && t.text == m, ts)
  | [] => some (false, ts)

/-- Whether the next token is the word `w`; it stays. -/
def isWord (w : String) : Reader Bool := fun ts =>
  match ts with
  | t :: _ => some (t.kind == .word && t.text == w, ts)
  | [] => some (false, ts)

/-- Reads a token that satisfies `p`. -/
def tokenThat (p : Token → Bool) : Reader Token := fun ts =>
  match ts with
  | t :: rest => if p t then some (t, rest) else none
  | [] => none

/-- Reads the mark `m`. -/
def mark (m : String) : Reader Unit := do
  let _ ← tokenThat fun t => t.kind == .mark && t.text == m

/-- Reads the keyword `w`. -/
def keyword (w : String) : Reader Unit := do
  let _ ← tokenThat fun t => t.kind == .word && t.text == w

/-- Reads a name. -/
def name : Reader String := do
  let t ← tokenThat (·.kind == .word)
  pure t.text

def lifetime : Reader String := do
  let t ← tokenThat (·.kind == .lifetime)
  pure t.text

/-- Reads something or nothing. -/
def optional (r : Reader α) : Reader (Option α) := fun ts =>
  match r ts with
  | some (a, rest) => some (some a, rest)
  | none => some (none, ts)

/-- Reads something if a condition that reads nothing holds. -/
def onlyIf (c : Reader Bool) (r : Reader α) : Reader (Option α) := do
  if ← c then some <$> r else pure none

/-- Reads the mark `m` if it comes next, and says whether it did. -/
def optionalMark (m : String) : Reader Bool := do
  if ← isMark m then
    mark m
    pure true
  else pure false

/-- Reads the word `w` if it comes next, and says whether it did. -/
def optionalKeyword (w : String) : Reader Bool := do
  if ← isWord w then
    keyword w
    pure true
  else pure false

/-- Reads as often as the reader succeeds and makes progress. -/
def repeated (r : Reader α) (ts : List Token) : List α × List Token :=
  match r ts with
  | none => ([], ts)
  | some (a, rest) =>
    if rest.length < ts.length then
      let more := repeated r rest
      (a :: more.1, more.2)
    else ([], ts)
termination_by ts.length

/-- Reads any number of things. -/
def many (r : Reader α) : Reader (List α) := fun ts => some (repeated r ts)

/-- Reads at least one thing, and more of them behind the mark `sep`. -/
def separated (sep : String) (r : Reader α) : Reader (List α) := do
  let first ← r
  let rest ← many do
    mark sep
    r
  pure (first :: rest)

/-- Reads any number of things with commas between them up to the mark `close`, with or without a comma in
front of it. -/
def listed (close : String) (r : Reader α) : Reader (List α) := do
  if ← optionalMark close then pure []
  else
    let items ← separated "," r
    let _ ← optionalMark ","
    mark close
    pure items

/-- Like `listed`, with at least one thing. -/
def listed1 (close : String) (r : Reader α) : Reader (List α) := do
  let items ← separated "," r
  let _ ← optionalMark ","
  mark close
  pure items

/-- Reads nothing, and succeeds at the end. -/
def atEnd : Reader Unit := fun ts => if ts.isEmpty then some ((), ts) else none

/-- Succeeds if a reader would, and reads nothing. -/
def ahead (r : Reader α) : Reader Unit := fun ts => (r ts).map fun _ => ((), ts)

/-- Reads something together with its text on one line. -/
def withText (r : Reader α) : Reader (α × String) := fun ts =>
  match r ts with
  | some (a, rest) => some ((a, squashed (ts.take (ts.length - rest.length))), rest)
  | none => none

/-- Reads something and gives only its text. -/
def textOf (r : Reader α) : Reader String := do
  let (_, s) ← withText r
  pure s

/-- Reads something and gives its text as it was written. -/
def writtenText (r : Reader α) : Reader String := fun ts =>
  match r ts with
  | some (_, rest) => some (verbatim (ts.take (ts.length - rest.length)), rest)
  | none => none

/-- The closing mark that belongs to an opening one. -/
def closing? (m : String) : Option String :=
  match m with
  | "(" => some ")"
  | "[" => some "]"
  | "\x7b" => some "\x7d"
  | _ => none

/-- Reads up to the closing mark of every group in `open_`, the innermost first. -/
def closeGroups : List String → List Token → Option (List Token)
  | [], ts => some ts
  | _ :: _, [] => none
  | close :: outer, t :: rest =>
    if t.kind == .mark then
      if t.text == close then closeGroups outer rest
      else
        match closing? t.text with
        | some inner => closeGroups (inner :: close :: outer) rest
        | none => if t.text == ")" || t.text == "]" || t.text == "\x7d" then none else closeGroups (close :: outer) rest
    else closeGroups (close :: outer) rest

/-- Reads a group of balanced tokens that the mark `m` opens. -/
def group (m : String) : Reader Unit := do
  mark m
  match closing? m with
  | some close => fun ts => (closeGroups [close] ts).map fun rest => ((), rest)
  | none => failure

/-- Reads a group of balanced tokens. -/
def anyGroup : Reader Unit := group "(" <|> group "[" <|> group "\x7b"

/-- Reads a group, or one token that neither opens nor closes one and is none of the marks `stops`. -/
def treeBut (stops : List String) : Reader Unit :=
  anyGroup <|> do
    let _ ← tokenThat fun t =>
      !(t.kind == .mark && (stops ++ ["(", "[", "\x7b", ")", "]", "\x7d"]).contains t.text)

/-- Reads balanced tokens up to one of the marks `stops`, at least one. -/
def trees (stops : List String) : Reader Unit := do
  treeBut stops
  let _ ← many (treeBut stops)

end Reader

end TraitMock.Syntax
