import TraitMock.Json.Parser

namespace TraitMock.Json

open TraitMock.Json.Parser (isSpace hexDigit? simpleEscape?)

def IsGap (cs : List Char) : Prop := ∀ c ∈ cs, isSpace c = true

theorem isGap_nil : IsGap [] := nofun

def IsDigits (cs : List Char) : Prop := ∀ c ∈ cs, c.isDigit = true

section Strings

/-- Four hexadecimal digits and the number that they stand for. -/
inductive HexText : Nat → List Char → Prop where
  | mk {a b c d : Char} {x y z w : Nat} (ha : hexDigit? a = some x) (hb : hexDigit? b = some y)
    (hc : hexDigit? c = some z) (hd : hexDigit? d = some w) :
    HexText (16 * (16 * (16 * x + y) + z) + w) [a, b, c, d]

/-- How a character of a string is written: as it is, by a short escape, by its number, or by the two numbers of a
    surrogate pair. -/
inductive CharText : Char → List Char → Prop where
  | plain {c : Char} (hcontrol : 32 ≤ c.toNat) (hquote : c ≠ '"') (hslash : c ≠ '\\') : CharText c [c]
  | short {c letter : Char} (h : simpleEscape? letter = some c) : CharText c ['\\', letter]
  | number {c : Char} {digits : List Char} (h : HexText c.toNat digits) : CharText c ('\\' :: 'u' :: digits)
  | pair {c : Char} {n m : Nat} {high low : List Char} (hhigh : HexText n high) (hlow : HexText m low)
    (hn : 0xD800 ≤ n ∧ n < 0xDC00) (hm : 0xDC00 ≤ m ∧ m ≤ 0xDFFF)
    (hc : c.toNat = (n - 0xD800) * 1024 + (m - 0xDC00) + 0x10000) :
    CharText c ('\\' :: 'u' :: (high ++ '\\' :: 'u' :: low))

/-- What stands between the quotation marks of a string. -/
inductive StringText : List Char → List Char → Prop where
  | nil : StringText [] []
  | cons {c : Char} {cs written rest : List Char} (hc : CharText c written) (hcs : StringText cs rest) :
    StringText (c :: cs) (written ++ rest)

/-- Whether a character can stand in a string as it is. -/
def isPlain (c : Char) : Bool := 32 ≤ c.toNat && c ≠ '"' && c ≠ '\\'

/-- Most strings can be written as they are. -/
theorem stringText_self (cs : List Char) (h : cs.all isPlain = true) : StringText cs cs := by
  induction cs with
  | nil => exact .nil
  | cons c cs ih =>
    obtain ⟨hc, hcs⟩ : isPlain c = true ∧ cs.all isPlain = true := by simpa using h
    obtain ⟨⟨hcontrol, hquote⟩, hslash⟩ : (32 ≤ c.toNat ∧ c ≠ '"') ∧ c ≠ '\\' := by simpa [isPlain] using hc
    exact .cons (.plain hcontrol hquote hslash) (ih hcs)

end Strings

section Numbers

/-- The whole part of a number, which has no zero in front of other digits. -/
inductive WholeText : List Char → Prop where
  | zero : WholeText ['0']
  | digits {d : Char} {ds : List Char} (hzero : d ≠ '0') (hdigits : IsDigits (d :: ds)) : WholeText (d :: ds)

inductive FractionText : List Char → Prop where
  | absent : FractionText []
  | digits {d : Char} {ds : List Char} (hdigits : IsDigits (d :: ds)) : FractionText ('.' :: d :: ds)

inductive ExponentText : List Char → Prop where
  | absent : ExponentText []
  | digits {mark d : Char} {sign ds : List Char} (hmark : mark = 'e' ∨ mark = 'E')
    (hsign : sign = [] ∨ sign = ['+'] ∨ sign = ['-']) (hdigits : IsDigits (d :: ds)) :
    ExponentText (mark :: (sign ++ d :: ds))

/-- A number without its sign. -/
inductive NumberText : List Char → Prop where
  | mk {whole fraction exponent : List Char} (hwhole : WholeText whole) (hfraction : FractionText fraction)
    (hexponent : ExponentText exponent) : NumberText (whole ++ (fraction ++ exponent))

/-- The number that some digits stand for, as far as there is room for it. -/
def numberOf (negative : Bool) (digits : List Char) : Except Fault Number :=
  match (Parser.number negative digits).value with
  | .number n => n
  | _ => .error .invalidNumber

end Numbers

section Values

mutual

/-- How a value is written. -/
inductive Spells : Json → List Char → Prop where
  | null : Spells .null ['n', 'u', 'l', 'l']
  | true : Spells (.bool .true) ['t', 'r', 'u', 'e']
  | false : Spells (.bool .false) ['f', 'a', 'l', 's', 'e']
  | positive {digits : List Char} (h : NumberText digits) : Spells (.number (numberOf .false digits)) digits
  | negative {digits : List Char} (h : NumberText digits) : Spells (.number (numberOf .true digits)) ('-' :: digits)
  | string {s : String} {written : List Char} (h : StringText s.toList written) :
    Spells (.string ⟨s, none⟩) ('"' :: (written ++ ['"']))
  | emptyArray {gap : List Char} (hgap : IsGap gap) : Spells (.array [] none) ('[' :: (gap ++ [']']))
  | array {items : List Json} {written : List Char} (h : SpellsItems items written) :
    Spells (.array items none) ('[' :: (written ++ [']']))
  | emptyObject {gap : List Char} (hgap : IsGap gap) : Spells (.object [] none) ('\x7b' :: (gap ++ ['\x7d']))
  | object {entries : List (Text × Json)} {written : List Char} (h : SpellsEntries entries written) :
    Spells (.object entries none) ('\x7b' :: (written ++ ['\x7d']))

/-- How the items of an array are written, one at least. -/
inductive SpellsItems : List Json → List Char → Prop where
  | last {j : Json} {before written behind : List Char} (hbefore : IsGap before) (h : Spells j written)
    (hbehind : IsGap behind) : SpellsItems [j] (before ++ (written ++ behind))
  | more {j : Json} {items : List Json} {before written behind rest : List Char} (hbefore : IsGap before)
    (h : Spells j written) (hbehind : IsGap behind) (hrest : SpellsItems items rest) :
    SpellsItems (j :: items) (before ++ (written ++ (behind ++ ',' :: rest)))

/-- How the entries of an object are written, one at least. -/
inductive SpellsEntries : List (Text × Json) → List Char → Prop where
  | last {key : String} {j : Json} {before name mid front written behind : List Char} (hbefore : IsGap before)
    (hkey : StringText key.toList name) (hmid : IsGap mid) (hfront : IsGap front) (h : Spells j written)
    (hbehind : IsGap behind) :
    SpellsEntries [(⟨key, none⟩, j)] (before ++ '"' :: (name ++ '"' :: (mid ++ ':' :: (front ++ (written ++ behind)))))
  | more {key : String} {j : Json} {entries : List (Text × Json)}
    {before name mid front written behind rest : List Char} (hbefore : IsGap before)
    (hkey : StringText key.toList name) (hmid : IsGap mid) (hfront : IsGap front) (h : Spells j written)
    (hbehind : IsGap behind) (hrest : SpellsEntries entries rest) :
    SpellsEntries ((⟨key, none⟩, j) :: entries)
      (before ++ '"' :: (name ++ '"' :: (mid ++ ':' :: (front ++ (written ++ (behind ++ ',' :: rest))))))

end

/-- A text that stands for a value. -/
def IsTextOf (text : String) (j : Json) : Prop :=
  ∃ before written behind, IsGap before ∧ Spells j written ∧ IsGap behind ∧
    text.toList = before ++ (written ++ behind)

end Values

end TraitMock.Json
