import TraitMock.Decimal.Shortest

namespace TraitMock

namespace Json

/-- Why a text is not JSON. -/
inductive Fault where
  | eofInList
  | eofInObject
  | eofInString
  | eofInValue
  | expectedColon
  | expectedListEnd
  | expectedObjectEnd
  | expectedIdent
  | expectedValue
  | invalidEscape
  | invalidNumber
  | numberOutOfRange
  | controlCharacter
  | keyNotString
  | loneSurrogate
  | trailingComma
  | trailingCharacters
  | unfinishedSurrogate
  deriving DecidableEq, Repr

namespace Fault

def message : Fault → String
  | .eofInList => "EOF while parsing a list"
  | .eofInObject => "EOF while parsing an object"
  | .eofInString => "EOF while parsing a string"
  | .eofInValue => "EOF while parsing a value"
  | .expectedColon => "expected \x60:\x60"
  | .expectedListEnd => "expected \x60,\x60 or \x60]\x60"
  | .expectedObjectEnd => "expected \x60,\x60 or \x60\x7d\x60"
  | .expectedIdent => "expected ident"
  | .expectedValue => "expected value"
  | .invalidEscape => "invalid escape"
  | .invalidNumber => "invalid number"
  | .numberOutOfRange => "number out of range"
  | .controlCharacter => "control character (\\u0000-\\u001F) found while parsing a string"
  | .keyNotString => "key must be a string"
  | .loneSurrogate => "lone leading surrogate in hex escape"
  | .trailingComma => "trailing comma"
  | .trailingCharacters => "trailing characters"
  | .unfinishedSurrogate => "unexpected end of hex escape"

/-- Whether the text ended too early. -/
def isEof : Fault → Bool
  | .eofInList => true
  | .eofInObject => true
  | .eofInString => true
  | .eofInValue => true
  | _ => false

end Fault

/-- The place where the text stops being JSON: what a reader reports there, and what one that passes over the
value reports. -/
structure Break where
  read : Fault
  skipped : Fault
  /-- Whether a comma stands before it, so that another part was announced. -/
  afterComma : Bool := false
  deriving DecidableEq, Repr

/-- A fault that shows in both ways. -/
def Break.of (f : Fault) : Break := ⟨f, f, false⟩

inductive Number where
  | integer (n : Int)
  | float (x : Float)

/-- A string, with the fault that shows when it is read. -/
structure Text where
  text : String
  fault? : Option Fault := none
  deriving DecidableEq, Repr

end Json

/-- A JSON value, complete or up to the place where its text stops being JSON. What stands in front of the first fault
    can be read, so the fault is kept in the place where it stands. -/
inductive Json where
  | null
  | bool (b : Bool)
  | number (n : Except Json.Fault Json.Number)
  | string (t : Json.Text)
  | array (items : List Json) (ending? : Option Json.Break)
  | object (entries : List (Json.Text × Json)) (ending? : Option Json.Break)
  | broken (b : Json.Break)

namespace Json

/-- A whole text: its value and what follows it. -/
structure Document where
  value : Json
  ending? : Option Fault := none

mutual

/-- The fault found when a value is passed over. -/
def skipFault? : Json → Option Fault
  | .array items ending? => (skipFaultAll? items).or (ending?.map (·.skipped))
  | .object entries ending? => (skipFaultEntries? entries).or (ending?.map (·.skipped))
  | .broken b => some b.skipped
  | _ => none

def skipFaultAll? : List Json → Option Fault
  | [] => none
  | j :: rest => (skipFault? j).or (skipFaultAll? rest)

def skipFaultEntries? : List (Text × Json) → Option Fault
  | [] => none
  | (_, j) :: rest => (skipFault? j).or (skipFaultEntries? rest)

end

end Json

end TraitMock
