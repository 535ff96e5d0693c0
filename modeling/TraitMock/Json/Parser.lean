import TraitMock.Json.Basic

namespace TraitMock.Json.Parser

def isSpace (c : Char) : Bool := c == ' ' || c == '\n' || c == '\t' || c == '\r'

def skipSpace (cs : List Char) : List Char := cs.dropWhile isSpace

/-- A part of a text: what was read, and what follows unless the text broke. -/
structure Parsed (α : Type) where
  value : α
  rest? : Option (List Char)

/-- Checks the letters of a word. -/
def word (value : Json) : List Char → List Char → Parsed Json
  | [], cs => ⟨value, some cs⟩
  | _ :: _, [] => ⟨.broken (.of .eofInValue), none⟩
  | w :: ws, c :: cs => if w = c then word value ws cs else ⟨.broken (.of .expectedIdent), none⟩

/-- Reads digits into a whole number of 64 bits. Digits for which there is no room are dropped; their number
comes third. -/
def takeDigits (significand dropped : Nat) : List Char → Nat × Nat × List Char
  | [] => (significand, dropped, [])
  | c :: rest =>
    if c.isDigit then
      let next := 10 * significand + (c.toNat - 48)
      if 0 < dropped ∨ 0x10000000000000000 ≤ next then takeDigits significand (dropped + 1) rest
      else takeDigits next dropped rest
    else (significand, dropped, c :: rest)

/-- `significand · 10 ^ exponent`, scaled in steps for which there is a power of ten. -/
def scaled (significand : Float) : Nat → Int → Except Fault Float
  | 0, _ => .ok significand
  | steps + 1, exponent =>
    if exponent.natAbs ≤ 308 then
      let power := Float.ofScientific 1 false exponent.natAbs
      if 0 ≤ exponent then
        let x := significand * power
        if x.isInf then .error .numberOutOfRange else .ok x
      else .ok (significand / power)
    else if significand == 0 then .ok significand
    else if 0 ≤ exponent then .error .numberOutOfRange
    else scaled (significand / Float.ofScientific 1 false 308) steps (exponent + 308)

/-- A floating-point number from its parts. -/
def floatOf (negative : Bool) (significand : Nat) (exponent : Int) : Except Fault Number := do
  let x ← scaled (Float.ofNat significand) (exponent.natAbs + 1) exponent
  pure (.float (if negative then -x else x))

/-- A whole number; one that does not fit 64 bits, and a negative zero, are floating-point numbers. -/
def integerOf (negative : Bool) (significand : Nat) : Number :=
  if negative then
    if significand = 0 ∨ 0x8000000000000000 < significand then .float (-(Float.ofNat significand))
    else .integer (-significand)
  else .integer significand

/-- Reads what follows the letter of an exponent. -/
def exponentPart (negative : Bool) (significand : Nat) (exponent : Int) (cs : List Char) : Parsed Json :=
  let (below, digits) := match cs with
    | '+' :: rest => (false, rest)
    | '-' :: rest => (true, rest)
    | _ => (false, cs)
  match digits with
  | [] => ⟨.broken ⟨.eofInValue, .invalidNumber, false⟩, none⟩
  | c :: _ =>
    if !c.isDigit then ⟨.broken (.of .invalidNumber), none⟩
    else
      let ds := digits.takeWhile Char.isDigit
      let power : Int := ds.foldl (fun n d => 10 * n + (d.toNat - 48)) 0
      ⟨.number (floatOf negative significand (if below then exponent - power else exponent + power)),
        some (digits.dropWhile Char.isDigit)⟩

/-- Reads what follows the whole part of a number. -/
def fractionPart (negative : Bool) (significand dropped : Nat) (cs : List Char) : Parsed Json :=
  match cs with
  | '.' :: rest =>
    match rest with
    | [] => ⟨.broken ⟨.eofInValue, .invalidNumber, false⟩, none⟩
    | c :: _ =>
      if !c.isDigit then ⟨.broken (.of .invalidNumber), none⟩
      else
        let digits := rest.takeWhile Char.isDigit
        let after := rest.dropWhile Char.isDigit
        let (s, lost, _) := if 0 < dropped then (significand, digits.length, []) else takeDigits significand 0 digits
        let exponent : Int := (dropped : Int) - ((digits.length : Int) - lost)
        match after with
        | 'e' :: more => exponentPart negative s exponent more
        | 'E' :: more => exponentPart negative s exponent more
        | _ => ⟨.number (floatOf negative s exponent), some after⟩
  | 'e' :: rest => exponentPart negative significand dropped rest
  | 'E' :: rest => exponentPart negative significand dropped rest
  | _ =>
    if 0 < dropped then ⟨.number (floatOf negative significand dropped), some cs⟩
    else ⟨.number (.ok (integerOf negative significand)), some cs⟩

/-- Reads a number behind its sign. -/
def number (negative : Bool) (cs : List Char) : Parsed Json :=
  match cs with
  | [] => ⟨.broken ⟨.eofInValue, .invalidNumber, false⟩, none⟩
  | '0' :: rest =>
    match rest with
    | c :: _ =>
      if c.isDigit then ⟨.broken (.of .invalidNumber), none⟩ else fractionPart negative 0 0 rest
    | [] => fractionPart negative 0 0 rest
  | c :: _ =>
    if c.isDigit then
      let (s, dropped, rest) := takeDigits 0 0 cs
      fractionPart negative s dropped rest
    else ⟨.broken (.of .invalidNumber), none⟩

def hexDigit? (c : Char) : Option Nat :=
  if c.isDigit then some (c.toNat - 48)
  else if 'a' ≤ c ∧ c ≤ 'f' then some (c.toNat - 87)
  else if 'A' ≤ c ∧ c ≤ 'F' then some (c.toNat - 55)
  else none

/-- Reads `count` hexadecimal digits behind `n`. -/
def hex (n : Nat) : Nat → List Char → Except Fault (Nat × List Char)
  | 0, cs => .ok (n, cs)
  | _ + 1, [] => .error .eofInString
  | count + 1, c :: rest =>
    match hexDigit? c with
    | some d => hex (16 * n + d) count rest
    | none => .error .invalidEscape

/-- What a backslash and a letter stand for. -/
def simpleEscape? : Char → Option Char
  | '"' => some '"'
  | '\\' => some '\\'
  | '/' => some '/'
  | 'b' => some '\x08'
  | 'f' => some '\x0c'
  | 'n' => some '\n'
  | 'r' => some '\r'
  | 't' => some '\t'
  | _ => none

/-- The rest of a string whose first characters, reversed, are `acc`. `fault?` is the first fault that shows
when the string is read. -/
def stringRest (acc : List Char) (fault? : Option Fault) : Nat → List Char → Except Break (Text × List Char)
  | 0, _ => .error (.of .eofInString)
  | _ + 1, [] => .error ⟨fault?.getD .eofInString, .eofInString, false⟩
  | _ + 1, '"' :: rest => .ok (⟨String.ofList acc.reverse, fault?⟩, rest)
  | fuel + 1, '\\' :: rest =>
    match rest with
    | [] => .error ⟨fault?.getD .eofInString, .eofInString, false⟩
    | 'u' :: more =>
      match hex 0 4 more with
      | .error f => .error ⟨fault?.getD f, f, false⟩
      | .ok (n, more) =>
        if n < 0xD800 ∨ 0xDFFF < n then stringRest (Char.ofNat n :: acc) fault? fuel more
        else if 0xDC00 ≤ n then stringRest acc (fault?.or (some .loneSurrogate)) fuel more
        else match more with
          | '\\' :: 'u' :: low =>
            match hex 0 4 low with
            | .error f => .error ⟨fault?.getD f, f, false⟩
            | .ok (m, after) =>
              if 0xDC00 ≤ m ∧ m ≤ 0xDFFF then
                stringRest (Char.ofNat ((n - 0xD800) * 1024 + (m - 0xDC00) + 0x10000) :: acc) fault? fuel after
              else stringRest acc (fault?.or (some .loneSurrogate)) fuel more
          | [] => .error ⟨fault?.getD .eofInString, .eofInString, false⟩
          | ['\\'] => .error ⟨fault?.getD .eofInString, .eofInString, false⟩
          | _ => stringRest acc (fault?.or (some .unfinishedSurrogate)) fuel more
    | c :: more =>
      match simpleEscape? c with
      | some d => stringRest (d :: acc) fault? fuel more
      | none => .error ⟨fault?.getD .invalidEscape, .invalidEscape, false⟩
  | fuel + 1, c :: rest =>
    if c.toNat < 32 then .error ⟨fault?.getD .controlCharacter, .controlCharacter, false⟩
    else stringRest (c :: acc) fault? fuel rest

/-- Reads a string behind its first quotation mark. -/
def stringBody (cs : List Char) : Except Break (Text × List Char) := stringRest [] none (cs.length + 1) cs

mutual

/-- Reads a value. `fuel` exceeds twice the number of characters left: of a call and the one that it makes, one passes
over a character. -/
def value : Nat → List Char → Parsed Json
  | 0, _ => ⟨.broken (.of .eofInValue), none⟩
  | fuel + 1, cs =>
    match skipSpace cs with
    | [] => ⟨.broken (.of .eofInValue), none⟩
    | 'n' :: rest => word .null ['u', 'l', 'l'] rest
    | 't' :: rest => word (.bool true) ['r', 'u', 'e'] rest
    | 'f' :: rest => word (.bool false) ['a', 'l', 's', 'e'] rest
    | '-' :: rest => number true rest
    | '"' :: rest =>
      match stringBody rest with
      | .ok (t, rest) => ⟨.string t, some rest⟩
      | .error b => ⟨.broken b, none⟩
    | '[' :: rest =>
      let p := items true fuel rest
      ⟨.array p.value.1 p.value.2, p.rest?⟩
    | '\x7b' :: rest =>
      let p := entries true fuel rest
      ⟨.object p.value.1 p.value.2, p.rest?⟩
    | c :: rest => if c.isDigit then number false (c :: rest) else ⟨.broken (.of .expectedValue), none⟩

/-- Reads the items of an array that are left; `first` says that none was read yet. -/
def items (first : Bool) : Nat → List Char → Parsed (List Json × Option Break)
  | 0, _ => ⟨([], some (.of .eofInList)), none⟩
  | fuel + 1, cs =>
    let item := fun (cs : List Char) =>
      let v := value fuel cs
      match v.rest? with
      | none => ⟨([v.value], none), none⟩
      | some rest =>
        let more := items false fuel rest
        ⟨(v.value :: more.value.1, more.value.2), more.rest?⟩
    match skipSpace cs with
    | [] => ⟨([], some (.of .eofInList)), none⟩
    | ']' :: rest => ⟨([], none), some rest⟩
    | c :: rest =>
      if first then item (c :: rest)
      else if c = ',' then
        match skipSpace rest with
        | [] => ⟨([], some ⟨.eofInValue, .eofInValue, true⟩), none⟩
        | ']' :: _ => ⟨([], some ⟨.trailingComma, .expectedValue, true⟩), none⟩
        | rest => item rest
      else ⟨([], some (.of .expectedListEnd)), none⟩

/-- Reads the entries of an object that are left; `first` says that none was read yet. -/
def entries (first : Bool) : Nat → List Char → Parsed (List (Text × Json) × Option Break)
  | 0, _ => ⟨([], some (.of .eofInObject)), none⟩
  | fuel + 1, cs =>
    let entry := fun (cs : List Char) =>
      match stringBody cs with
      | .error b => ⟨([], some b), none⟩
      | .ok (key, rest) =>
        match skipSpace rest with
        | [] => ⟨([(key, .broken (.of .eofInObject))], none), none⟩
        | ':' :: rest =>
          let v := value fuel rest
          match v.rest? with
          | none => ⟨([(key, v.value)], none), none⟩
          | some rest =>
            let more := entries false fuel rest
            ⟨((key, v.value) :: more.value.1, more.value.2), more.rest?⟩
        | _ => ⟨([(key, .broken (.of .expectedColon))], none), none⟩
    match skipSpace cs with
    | [] => ⟨([], some (.of .eofInObject)), none⟩
    | '\x7d' :: rest => ⟨([], none), some rest⟩
    | '"' :: rest => if first then entry rest else ⟨([], some (.of .expectedObjectEnd)), none⟩
    | c :: rest =>
      if first then ⟨([], some (.of .keyNotString)), none⟩
      else if c = ',' then
        match skipSpace rest with
        | [] => ⟨([], some ⟨.eofInValue, .eofInObject, true⟩), none⟩
        | '"' :: rest => entry rest
        | '\x7d' :: _ => ⟨([], some ⟨.trailingComma, .keyNotString, true⟩), none⟩
        | _ => ⟨([], some (.of .keyNotString)), none⟩
      else ⟨([], some (.of .expectedObjectEnd)), none⟩

end

end TraitMock.Json.Parser

namespace TraitMock.Json

/-- Reads a whole text. -/
def parse (s : String) : Document :=
  let cs := s.toList
  let p := Parser.value (2 * cs.length + 1) cs
  match p.rest? with
  | none => ⟨p.value, none⟩
  | some rest => ⟨p.value, if Parser.skipSpace rest = [] then none else some .trailingCharacters⟩

end TraitMock.Json
