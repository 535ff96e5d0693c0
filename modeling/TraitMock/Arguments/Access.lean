import TraitMock.Arguments.Diff

namespace TraitMock

/-- Why a value could not be read, replaced or compared. -/
inductive ArgumentError where
  | outOfRange (index length : Nat)
  /-- The value at `index` has another type than the accessor gives. -/
  | wrongType (accessor : String) (index : Nat) (found wanted : String)
  | lengthsDiffer (left right : Nat)
  deriving DecidableEq, Repr

def ArgumentError.message : ArgumentError → String
  | .outOfRange index length =>
    "[mock] arguments: Get(" ++ toString index ++ ") out of range " ++ toString length ++ " max"
  | .wrongType accessor index found wanted =>
    "[mock] arguments: " ++ accessor ++ "(" ++ toString index ++ ") is of type \"" ++ found ++ "\" not " ++
      wanted
  | .lengthsDiffer left right =>
    "[must] arguments: argument lengths do not match " ++ toString left ++ " != " ++ toString right

/-- Why no return value of a type could be taken from a list. -/
inductive ReturnError where
  | outOfRange (index length : Nat)
  | nil (index : Nat) (wanted : String)
  | wrongType (index : Nat) (found wanted : String)
  | notCloneable (index : Nat) (wanted : String)
  deriving DecidableEq, Repr

def ReturnError.message : ReturnError → String
  | .outOfRange index length => (ArgumentError.outOfRange index length).message
  | .nil index wanted => "[mock] return value " ++ toString index ++ " is nil, want " ++ wanted
  | .wrongType index found wanted =>
    "[mock] return value " ++ toString index ++ " is of type \"" ++ found ++ "\" not \"" ++ wanted ++ "\""
  | .notCloneable index wanted =>
    "[mock] return value " ++ toString index ++ " of type \"" ++ wanted ++
      "\" cannot be cloned, return a function producing it"

/-- The type asked for: that of some data, or any value as it is. -/
inductive Wanted where
  | data (type : DataType)
  | value

/-- The short name of the type asked for. -/
def Wanted.shortName : Wanted → String
  | .data type => type.shortName
  | .value => "Value"

/-- The value read at the type asked for. -/
def Wanted.read? : Wanted → Value → Option Value
  | .value, v => some v
  | .data type, .data d => if d.type.name = type.name then some (.data d) else none
  | .data _, _ => none

namespace Arguments

def get (args : Arguments) (i : Nat) : Except ArgumentError Value :=
  match args[i]? with
  | some v => .ok v
  | none => .error (.outOfRange i args.length)

/-- Replaces the value at `i`. -/
def replace (args : Arguments) (i : Nat) (v : Value) : Except ArgumentError Arguments :=
  if i < args.length then .ok (args.set i v) else .error (.outOfRange i args.length)

/-- Reads the value at `i` with `read`, which an accessor of the given name does for a kind of values. -/
def readAs (accessor wanted : String) (read : Datum → Option α) (args : Arguments) (i : Nat) :
    Except ArgumentError α := do
  let v ← args.get i
  match v with
  | .data d =>
    match read d with
    | some a => .ok a
    | none => .error (.wrongType accessor i v.typeName wanted)
  | _ => .error (.wrongType accessor i v.typeName wanted)

/-- The content of a datum of the named type. -/
def contentNamed (name : String) (d : Datum) : Option Payload :=
  if d.type.name = name then some d.content else none

/-- The text at `i`. -/
def string (args : Arguments) (i : Nat) : Except ArgumentError String :=
  args.readAs "String" "string" (fun d =>
    match contentNamed DataType.text.name d with
    | some (.text s) => some s
    | _ => none) i

/-- The types of signed whole numbers. -/
def signedTypes : List String := ["i64", "i32", "i16", "i8", "isize"]

/-- The signed whole number at `i`, of any width. -/
def int (args : Arguments) (i : Nat) : Except ArgumentError Int :=
  args.readAs "Int" "int" (fun d =>
    match signedTypes.contains d.type.name, d.content with
    | true, .int n => some n
    | _, _ => none) i

/-- The truth value at `i`. -/
def bool (args : Arguments) (i : Nat) : Except ArgumentError Bool :=
  args.readAs "Bool" "bool" (fun d =>
    match contentNamed DataType.bool.name d with
    | some (.bool b) => some b
    | _ => none) i

/-- The error at `i`, or none where there is nothing. -/
def error (args : Arguments) (i : Nat) : Except ArgumentError (Option ErrorChain) := do
  let v ← args.get i
  if v.isNil then pure none
  else
    let chain ← args.readAs "Error" "error" (fun d =>
      match contentNamed DataType.error.name d with
      | some (.error e) => some e
      | _ => none) i
    pure (some chain)

/-- The configured return value at `i`, at the type asked for. -/
def returned (args : Arguments) (i : Nat) (wanted : Wanted) : Except ReturnError Value :=
  match args[i]? with
  | none => .error (.outOfRange i args.length)
  | some v =>
    match wanted.read? v with
    | some r => .ok r
    | none =>
      if v.isNil then .error (.nil i wanted.shortName)
      else .error (.wrongType i v.typeName wanted.shortName)

/-- The return value at `i` for a generated method: nothing stands for the default of the type, and a type
    without copies has no configured values. -/
def extract (args : Arguments) (i : Nat) : Wanted → Except ReturnError Value
  | .value => args.returned i .value
  | .data type =>
    if !type.cloneable then .error (.notCloneable i type.shortName)
    else
      match args[i]?, type.default? with
      | some .nil, some d => .ok (.data ⟨type, d, .plain⟩)
      | _, _ => args.returned i (.data type)

/-- The producer at `i`, if it has the named type. -/
def producer? (args : Arguments) (i : Nat) (typeName : String) : Option Producer :=
  match args[i]? with
  | some (.producer p) => if p.typeName = typeName then some p else none
  | _ => none

/-- Whether two lists of one length hold equal values. -/
def equal (left right : Arguments) : Except ArgumentError Bool :=
  if left.length ≠ right.length then .error (.lengthsDiffer left.length right.length)
  else .ok ((left.zip right).all fun p => p.1.deepEqual p.2)

end Arguments

end TraitMock
