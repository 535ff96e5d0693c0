import TraitMock.Text.Tables

namespace TraitMock.Text

/-- The digits of a number written in decimal, most significant first, read as that number. -/
def natOfDigits (digits : List Char) : Nat :=
  digits.foldl (fun n d => 10 * n + (d.toNat - 48)) 0

/-- The boundaries of a class from its gaps: at an even place stands the first character of a run of the
class, at the odd place after it the first one behind that run. -/
def boundaries (gaps : List String) : Array Nat :=
  let read := fun (acc : Array Nat × Nat) (gap : List Char) =>
    let next := acc.2 + natOfDigits gap
    (acc.1.push next, next)
  let words := gaps.flatMap fun line => (line.toList.splitOn ' ').filter (· ≠ [])
  (words.foldl read (#[], 0)).1

/-- How many of the ascending boundaries with an index in `lo … hi - 1` are at most `n`, plus `lo`: found
by halving the interval. -/
def boundariesUpTo (bounds : Array Nat) (n lo hi : Nat) : Nat :=
  if _h : lo < hi then
    let mid := (lo + hi) / 2
    match bounds[mid]? with
    | some b => if b ≤ n then boundariesUpTo bounds n (mid + 1) hi else boundariesUpTo bounds n lo mid
    | none => lo
  else lo
termination_by hi - lo

/-- A number lies in a class when an odd number of the boundaries are at most it. -/
def withinBoundaries (bounds : Array Nat) (n : Nat) : Bool :=
  boundariesUpTo bounds n 0 bounds.size % 2 == 1

def alphabeticBounds : Array Nat := boundaries Tables.alphabeticGaps
def numericBounds : Array Nat := boundaries Tables.numericGaps
def uppercaseBounds : Array Nat := boundaries Tables.uppercaseGaps
def lowercaseBounds : Array Nat := boundaries Tables.lowercaseGaps
def whitespaceBounds : Array Nat := boundaries Tables.whitespaceGaps
def extenderBounds : Array Nat := boundaries Tables.extenderGaps
def unprintableBounds : Array Nat := boundaries Tables.unprintableGaps
def nameStartBounds : Array Nat := boundaries Tables.nameStartGaps
def nameContinueBounds : Array Nat := boundaries Tables.nameContinueGaps

/-- A rule for ASCII and a table for the rest make a class. -/
def classOf (ascii : Char → Bool) (bounds : Array Nat) (c : Char) : Bool :=
  if c.toNat < 128 then ascii c else withinBoundaries bounds c.toNat

/-- A letter, of any script. -/
def isLetter (c : Char) : Bool := classOf Char.isAlpha alphabeticBounds c

/-- A letter or a number, of any script. -/
def isLetterOrNumber (c : Char) : Bool :=
  isLetter c || classOf Char.isDigit numericBounds c

/-- An uppercase letter, of any script. -/
def isUppercase (c : Char) : Bool := classOf Char.isUpper uppercaseBounds c

/-- A lowercase letter, of any script. -/
def isLowercase (c : Char) : Bool := classOf Char.isLower lowercaseBounds c

/-- White space of ASCII: the blank and the characters from tab to carriage return. -/
def isAsciiBlank (c : Char) : Bool := c == ' ' || (9 ≤ c.toNat && c.toNat ≤ 13)

/-- White space, of any script. -/
def isBlank (c : Char) : Bool := classOf isAsciiBlank whitespaceBounds c

/-- A character that is drawn onto the one before it and has no width of its own. -/
def isExtender (c : Char) : Bool := classOf (fun _ => false) extenderBounds c

/-- A character with a printed form of its own. -/
def isPrintable (c : Char) : Bool :=
  classOf (fun c => 32 ≤ c.toNat && c.toNat < 127) #[] c ||
    (128 ≤ c.toNat && !withinBoundaries unprintableBounds c.toNat)

/-- A character that may start a name: an underscore or a letter. -/
def isNameStart (c : Char) : Bool := c == '_' || classOf Char.isAlpha nameStartBounds c

/-- A character that may continue a name. -/
def isNameContinue (c : Char) : Bool :=
  c == '_' || classOf Char.isAlphanum nameContinueBounds c

/-- The lowercase form of an uppercase letter. Only `İ` has one of two characters, the letter and its dot;
every other character has one of one character, itself if there is no other. -/
def lowercaseForm (c : Char) : List Char :=
  if c.toNat < 128 then [c.toLower]
  else if c.toNat = 0x130 then ['i', '\u0307']
  else
    let run? := Tables.lowerRuns.find? fun r =>
      r.first ≤ c.toNat && c.toNat < r.first + r.count * r.step && (c.toNat - r.first) % r.step == 0
    match run? with
    | some r => [Char.ofNat (c.toNat + r.shift).toNat]
    | none => [c]

end TraitMock.Text
