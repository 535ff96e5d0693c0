import TraitMock.Text.CharClass

namespace TraitMock.Text

/-- The hexadecimal digits of a number, lowercase and without leading zeros. -/
def hexDigits (n : Nat) : List Char := Nat.toDigits 16 n

/-- An escape that gives the number of a character. -/
def numericEscape (c : Char) : List Char :=
  ['\\', 'u', '\x7b'] ++ hexDigits c.toNat ++ ['\x7d']

/-- The written form of one character between the quotation marks `quote`: the mark itself, the backslash
and the common controls have short escapes; a character that is not printable, or that would be drawn onto
the one before it, is written by its number. -/
def escapeChar (quote c : Char) : List Char :=
  if c = '\x00' then ['\\', '0']
  else if c = '\t' then ['\\', 't']
  else if c = '\r' then ['\\', 'r']
  else if c = '\n' then ['\\', 'n']
  else if c = '\\' ∨ c = quote then ['\\', c]
  else if isExtender c || !isPrintable c then numericEscape c
  else [c]

/-- A text in double quotation marks. -/
def quoted (s : String) : String :=
  String.ofList ('"' :: s.toList.flatMap (escapeChar '"') ++ ['"'])

/-- A character in single quotation marks. -/
def quotedChar (c : Char) : String :=
  String.ofList ('\'' :: escapeChar '\'' c ++ ['\''])

/-- A text in backticks, as it is. -/
def ticked (s : String) : String := "\x60" ++ s ++ "\x60"

end TraitMock.Text
