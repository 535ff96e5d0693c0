namespace TraitMock.Decimal

/-- A finite positive binary number, `mantissa · 2 ^ exponent`. -/
structure Binary where
  mantissa : Nat
  exponent : Int
  /-- Whether the number below is only half as far away as the number above. -/
  narrowBelow : Bool
  deriving DecidableEq, Repr

/-- A decimal `0.d₁d₂… · 10 ^ point`, where `d₁d₂…` are the digits of `digits`. -/
structure Digits where
  digits : Nat
  point : Int
  deriving DecidableEq, Repr

/-- An interval of rationals around a value; the three numbers have the denominator `scale`. -/
structure Interval where
  low : Nat
  value : Nat
  high : Nat
  scale : Nat
  closed : Bool
  deriving DecidableEq, Repr

/-- The reals that are read as a binary number. -/
def Binary.interval (b : Binary) : Interval :=
  let up := if 2 ≤ b.exponent then Nat.pow 2 (b.exponent - 2).toNat else 1
  let scale := if 2 ≤ b.exponent then 1 else Nat.pow 2 (2 - b.exponent).toNat
  { low := (4 * b.mantissa - if b.narrowBelow then 1 else 2) * up
    value := 4 * b.mantissa * up
    high := (4 * b.mantissa + 2) * up
    scale := scale
    closed := b.mantissa % 2 == 0 }

/-- `10 ^ n` as a pair of a numerator and a denominator. -/
def tenTo (n : Int) : Nat × Nat := (Nat.pow 10 n.toNat, Nat.pow 10 (-n).toNat)

/-- Whether `d · 10 ^ unit` lies in the interval. -/
def Interval.holds (i : Interval) (d : Nat) (unit : Int) : Bool :=
  let (num, den) := tenTo unit
  let x := d * num * i.scale
  if i.closed then i.low * den ≤ x && x ≤ i.high * den else i.low * den < x && x < i.high * den

/-- The multiple of `10 ^ unit` in the interval that is nearest to its value, the larger of two equally near
ones: one of the two neighbours of the value on that grid, if any. -/
def Interval.nearest? (i : Interval) (unit : Int) : Option Nat :=
  let (num, den) := tenTo unit
  let below := i.value * den / (num * i.scale)
  let above := below + 1
  let toBelow := i.value * den - below * num * i.scale
  let toAbove := above * num * i.scale - i.value * den
  match i.holds below unit && 0 < below, i.holds above unit with
  | true, true => some (if toBelow < toAbove then below else above)
  | true, false => some below
  | false, true => some above
  | false, false => none

/-- The least `p` in `first … first + span` such that the value is below `10 ^ p`, else the last. -/
def Interval.pointFrom (i : Interval) (first : Int) : Nat → Int
  | 0 => first
  | span + 1 =>
    let (num, den) := tenTo first
    if i.value * den < num * i.scale then first else i.pointFrom (first + 1) span

/-- Tries the grids of `tried`, `tried + 1`, … significant digits, `left` of them, and takes the first with a
multiple in the interval. -/
def Interval.firstGrid (i : Interval) (point : Int) (tried : Nat) : Nat → Digits
  | 0 => ⟨i.value / i.scale, point⟩
  | left + 1 =>
    match i.nearest? (point - tried) with
    | some d => if d = Nat.pow 10 tried then ⟨1, point + 1⟩ else ⟨d, point⟩
    | none => i.firstGrid point (tried + 1) left

/-- The shortest decimal that reads back as a binary number, the nearest of these. A number of the formats
below has at most 17 significant digits and lies between `10 ^ -324` and `10 ^ 309`. -/
def Binary.shortest (b : Binary) : Digits :=
  let i := b.interval
  i.firstGrid (i.pointFrom (-325) 640) 1 17

/-- A floating-point datum: not a number, or a sign with an infinite, zero or positive finite magnitude. -/
inductive Number where
  | notANumber
  | infinite (negative : Bool)
  | zero (negative : Bool)
  | finite (negative : Bool) (magnitude : Binary)
  deriving DecidableEq, Repr

/-- Reads the bits of a binary format with `fraction` bits of fraction, `width` bits of exponent and the
exponent of its least unit. -/
def Number.ofBits (bits fraction width : Nat) (least : Int) : Number :=
  let part := bits % Nat.pow 2 fraction
  let field := bits / Nat.pow 2 fraction % Nat.pow 2 width
  let negative := bits / Nat.pow 2 (fraction + width) % 2 == 1
  if field + 1 = Nat.pow 2 width then
    if part = 0 then .infinite negative else .notANumber
  else if field = 0 then
    if part = 0 then .zero negative else .finite negative ⟨part, least, false⟩
  else .finite negative ⟨Nat.pow 2 fraction + part, least + (field - 1 : Nat), part = 0 && 1 < field⟩

/-- A number of the 64-bit format. -/
def Number.ofFloat (x : Float) : Number := .ofBits x.toBits.toNat 52 11 (-1074)

/-- A number of the 32-bit format. -/
def Number.ofFloat32 (x : Float32) : Number := .ofBits x.toBits.toNat 23 8 (-149)

/-- How a floating-point number is written. -/
structure Style where
  /-- The least and the greatest position of the decimal point at which no exponent is written. -/
  leastPoint : Int
  greatestPoint : Int
  /-- What follows a whole number that has no exponent. -/
  wholeEnd : String
  notANumber : String
  infinite : String

/-- Puts the decimal point behind the first `point` digits, with zeros where there are none. -/
def Digits.positional (d : Digits) (wholeEnd : String) : String :=
  let ds := Nat.toDigits 10 d.digits
  if d.point ≤ 0 then
    "0." ++ String.ofList (List.replicate (-d.point).toNat '0' ++ ds)
  else
    let whole := d.point.toNat
    if ds.length ≤ whole then
      String.ofList (ds ++ List.replicate (whole - ds.length) '0') ++ wholeEnd
    else String.ofList (ds.take whole) ++ "." ++ String.ofList (ds.drop whole)

/-- Writes one digit in front of the decimal point and the exponent behind the last. -/
def Digits.scientific (d : Digits) : String :=
  let exponent := toString (d.point - 1)
  match Nat.toDigits 10 d.digits with
  | [] => "0e" ++ exponent
  | [c] => String.ofList [c] ++ "e" ++ exponent
  | c :: rest => String.ofList [c] ++ "." ++ String.ofList rest ++ "e" ++ exponent

/-- The text of a number in a style. -/
def Number.write (style : Style) : Number → String
  | .notANumber => style.notANumber
  | .infinite negative => (if negative then "-" else "") ++ style.infinite
  | .zero negative => (if negative then "-" else "") ++ "0" ++ style.wholeEnd
  | .finite negative magnitude =>
    let d := magnitude.shortest
    let text :=
      if style.leastPoint ≤ d.point ∧ d.point ≤ style.greatestPoint then d.positional style.wholeEnd
      else d.scientific
    (if negative then "-" else "") ++ text

/-- The plain style: positional from `0.0001` up to below `10 ^ 16`, and a whole number keeps one zero behind
its point. -/
def plain : Style := ⟨-3, 16, ".0", "NaN", "inf"⟩

end TraitMock.Decimal
