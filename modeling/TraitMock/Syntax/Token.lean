import TraitMock.Text.Lines

namespace TraitMock.Syntax

inductive TokenKind where
  /-- A name or a keyword. -/
  | word
  | lifetime
  | number
  /-- A string with escapes. -/
  | string
  /-- A string between number signs, without escapes. -/
  | rawString
  | character
  /-- Punctuation. -/
  | mark
  deriving DecidableEq, Repr

/-- A token remembers the blanks and comments in front of it, so that any part of a text can be given back as it was
    written. -/
structure Token where
  kind : TokenKind
  text : String
  /-- The blanks and comments in front. -/
  gap : String
  /-- Whether there is a comment among them. -/
  commented : Bool
  deriving DecidableEq, Repr

/-- The text of some tokens as it was written, without the gap in front of the first. -/
def verbatim : List Token → String
  | [] => ""
  | t :: rest => rest.foldl (fun s u => s ++ u.gap ++ u.text) t.text

/-- The text of some tokens on one line. -/
def squashed (ts : List Token) : String := Text.squash (verbatim ts)

/-- A blank between tokens. -/
def isSpace (c : Char) : Bool := c == ' ' || (9 ≤ c.toNat && c.toNat ≤ 13)

/-- Where the reading of a gap stands. -/
inductive GapState where
  | between
  /-- In a comment that ends with its line. -/
  | line
  /-- In a comment with `depth + 1` openings that are not closed yet. -/
  | block (depth : Nat)

/-- A gap as far as it was read. -/
structure Gap where
  chars : List Char
  commented : Bool
  rest : List Char

def Gap.cons (c : Char) (g : Gap) : Gap := { g with chars := c :: g.chars }

def Gap.comment (c d : Char) (g : Gap) : Gap := ⟨c :: d :: g.chars, true, g.rest⟩

/-- Reads blanks and comments. Fails in a comment that is not closed. -/
def readGap : GapState → List Char → Option Gap
  | .between, '/' :: '/' :: rest => (readGap .line rest).map (Gap.comment '/' '/')
  | .between, '/' :: '*' :: rest => (readGap (.block 0) rest).map (Gap.comment '/' '*')
  | .between, c :: rest =>
    if isSpace c then (readGap .between rest).map (Gap.cons c) else some ⟨[], false, c :: rest⟩
  | .line, '\n' :: rest => (readGap .between rest).map (Gap.cons '\n')
  | .line, c :: rest => (readGap .line rest).map (Gap.cons c)
  | .block 0, '*' :: '/' :: rest => (readGap .between rest).map (Gap.comment '*' '/')
  | .block (n + 1), '*' :: '/' :: rest => (readGap (.block n) rest).map (Gap.comment '*' '/')
  | .block n, '/' :: '*' :: rest => (readGap (.block (n + 1)) rest).map (Gap.comment '/' '*')
  | .block n, c :: rest => (readGap (.block n) rest).map (Gap.cons c)
  | .block _, [] => none
  | _, [] => some ⟨[], false, []⟩

/-- Puts characters in front of the first of two parts. -/
def ahead (cs : List Char) (x : List Char × List Char) : List Char × List Char := (cs ++ x.1, x.2)

/-- Reads a string up to its closing quote. -/
def readString : List Char → Option (List Char × List Char)
  | [] => none
  | '"' :: rest => some (['"'], rest)
  | '\\' :: c :: rest => (readString rest).map (ahead ['\\', c])
  | c :: rest => (readString rest).map (ahead [c])

/-- Reads a string without escapes up to the quote that `signs` number signs follow. -/
def readRaw (signs : Nat) : List Char → Option (List Char × List Char)
  | [] => none
  | c :: rest =>
    if c = '"' && (List.replicate signs '#').isPrefixOf rest then
      some ('"' :: rest.take signs, rest.drop signs)
    else (readRaw signs rest).map (ahead [c])

/-- Reads the number signs and the opening quote of a string without escapes, and the string. -/
def readRawStart (signs : Nat) : List Char → Option (List Char × List Char)
  | '#' :: rest => (readRawStart (signs + 1) rest).map (ahead ['#'])
  | '"' :: rest => (readRaw signs rest).map (ahead ['"'])
  | _ => none

/-- Reads what follows the opening quote of a character up to the closing one. -/
def readCharacter : List Char → Option (List Char × List Char)
  | '\\' :: c :: rest =>
    let more := rest.takeWhile fun d => d ≠ '\'' && d ≠ '\n'
    match rest.drop more.length with
    | '\'' :: after => some ('\\' :: c :: more ++ ['\''], after)
    | _ => none
  | '\\' :: [] => none
  | '\'' :: rest => some (['\''], rest)
  | c :: '\'' :: rest => some ([c, '\''], rest)
  | _ => none

/-- Reads a name from its first character on. -/
def readName (cs : List Char) : List Char × List Char :=
  (cs.takeWhile Text.isNameContinue, cs.dropWhile Text.isNameContinue)

/-- The letters that may stand in front of a quote, and whether the quoted text has no escapes. -/
def quoteMarks : List (List Char × Bool) :=
  [(['b'], false), (['c'], false), (['r'], true), (['b', 'r'], true), (['c', 'r'], true)]

/-- Reads a string that begins with the letters `mark`. -/
def readMarked (cs mark : List Char) (raw : Bool) : Option (TokenKind × List Char × List Char) :=
  if mark.isPrefixOf cs then
    let rest := cs.drop mark.length
    if raw then (readRawStart 0 rest).map fun x => (.rawString, ahead mark x)
    else
      match rest with
      | '"' :: rest => (readString rest).map fun x => (.string, ahead (mark ++ ['"']) x)
      | _ => none
  else none

/-- Reads a number: letters and digits, and more of them behind a dot that a digit follows. -/
def readNumber (cs : List Char) : List Char × List Char :=
  let isPart := fun (c : Char) => c.isAlphanum || c = '_'
  let whole := cs.takeWhile isPart
  match cs.dropWhile isPart with
  | '.' :: d :: rest =>
    if d.isDigit then ahead (whole ++ ['.']) ((d :: rest).takeWhile isPart, (d :: rest).dropWhile isPart)
    else (whole, '.' :: d :: rest)
  | rest => (whole, rest)

/-- The marks of one character. -/
def marks : List Char := "+-*/%^!&|=<>@.,;:#$?~()\x7b\x7d[]".toList

/-- The longer marks that are read as one. -/
def longMarks : List (List Char) := ["...", "::", "->", "=>", ".."].map String.toList

/-- Reads a mark. -/
def readMark (cs : List Char) : Option (List Char × List Char) :=
  match longMarks.find? fun m => m.isPrefixOf cs with
  | some m => some (m, cs.drop m.length)
  | none =>
    match cs with
    | c :: rest => if marks.contains c then some ([c], rest) else none
    | [] => none

/-- Reads one token that begins at once. -/
def readToken (cs : List Char) : Option (TokenKind × List Char × List Char) :=
  match quoteMarks.findSome? fun m => readMarked cs m.1 m.2 with
  | some t => some t
  | none =>
    match cs with
    | [] => none
    | '"' :: rest => (readString rest).map fun x => (.string, ahead ['"'] x)
    | '\'' :: rest =>
      match readCharacter rest with
      | some x => some (.character, ahead ['\''] x)
      | none =>
        match rest with
        | c :: _ => if Text.isNameStart c then some (.lifetime, ahead ['\''] (readName rest)) else none
        | [] => none
    | 'b' :: '\'' :: rest => (readCharacter rest).map fun x => (.character, ahead ['b', '\''] x)
    | 'r' :: '#' :: rest => some (.word, ahead ['r', '#'] (readName rest))
    | c :: rest =>
      if Text.isNameStart c then some (.word, readName (c :: rest))
      else if c.isDigit then some (.number, readNumber (c :: rest))
      else (readMark (c :: rest)).map fun x => (.mark, x)

/-- Reads at most `n` tokens up to the end of the text; fails where no token begins. -/
def readTokens : Nat → List Char → Option (List Token)
  | 0, _ => none
  | n + 1, cs =>
    match readGap .between cs with
    | none => none
    | some g =>
      if g.rest = [] then some []
      else
        match readToken g.rest with
        | none => none
        | some (kind, text, rest) =>
          (readTokens n rest).map (⟨kind, String.ofList text, String.ofList g.chars, g.commented⟩ :: ·)

/-- Skips a first line that names an interpreter. -/
def skipInterpreter : List Char → List Char
  | '#' :: '!' :: rest =>
    if (rest.dropWhile isSpace).head? = some '[' then '#' :: '!' :: rest else rest.dropWhile (· ≠ '\n')
  | cs => cs

/-- The tokens of a source text. -/
def tokens (source : String) : Option (List Token) :=
  let cs := skipInterpreter source.toList
  readTokens (cs.length + 1) cs

end TraitMock.Syntax
