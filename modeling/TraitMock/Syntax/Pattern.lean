import TraitMock.Syntax.Cursor

namespace TraitMock.Syntax.Reader

/-- Reads a literal as a pattern. -/
def literalPattern : Reader Unit := do
  if ← optionalMark "-" then
    let _ ← tokenThat (·.kind == .number)
  else
    let _ ← tokenThat fun t => t.kind != .mark && t.kind != .word && t.kind != .lifetime

/-- Reads a path as a pattern; `self` alone is none. -/
def pathPattern : Reader Unit := do
  let _ ← optionalMark "::"
  let names ← separated "::" name
  if names == ["self"] then failure

/-- Reads the dots of a range of patterns, and its end if there is one. -/
def rangeTail : Reader Unit := do
  mark "..." <|> (do
    mark ".."
    let _ ← optionalMark "=")
  let _ ← optional (literalPattern <|> pathPattern)

/-- Reads one or more alternatives, perhaps with a bar in front of the first. -/
def alternatives (operand : Reader Unit) : Reader Unit := do
  let _ ← optionalMark "|"
  let _ ← separated "|" operand

/-- Reads a pattern that has no alternatives at its top, at most `n` patterns deep. -/
def patternOperand : Nat → Reader Unit
  | 0 => failure
  | n + 1 =>
    (do
      mark "&"
      let _ ← optionalKeyword "mut"
      patternOperand n) <|>
    (do
      keyword "ref" <|> keyword "mut"
      patternOperand n) <|>
    (do
      mark "("
      let _ ← listed ")" (alternatives (patternOperand n))) <|>
    (do
      mark "["
      let _ ← listed "]" (alternatives (patternOperand n))) <|>
    (do
      keyword "const"
      group "\x7b") <|>
    (do
      pathPattern
      (do
        mark "("
        let _ ← listed ")" (alternatives (patternOperand n))) <|>
      group "\x7b" <|>
      (do
        mark "!"
        anyGroup) <|>
      (do
        mark "@"
        patternOperand n) <|>
      (do
        let _ ← optional rangeTail)) <|>
    (do
      literalPattern
      let _ ← optional rangeTail) <|>
    rangeTail

/-- Reads a pattern that has no alternatives at its top. -/
def simplePattern : Reader Unit := fun ts => patternOperand (ts.length + 1) ts

/-- Reads a pattern. Every pattern inside it begins behind a token of its own. -/
def pattern : Reader Unit := fun ts => alternatives (patternOperand (ts.length + 1)) ts

/-- Reads a pattern or `self` in front of a colon, both with it. -/
def patternColon : Reader Unit :=
  (do
    keyword "self"
    mark ":") <|>
  (do
    pattern
    mark ":")

end TraitMock.Syntax.Reader
