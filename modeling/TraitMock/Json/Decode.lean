import TraitMock.Json.Parser
import TraitMock.Text.Quoted

namespace TraitMock.Json

/-- Why a document has not the shape asked for. -/
inductive ShapeError where
  | invalidType (found expected : String)
  | missingField (name : String)
  | duplicateField (name : String)
  | invalidLength (length : Nat) (expected : String)
  deriving DecidableEq, Repr

inductive Error where
  | syntaxFault (f : Fault)
  | shape (e : ShapeError)
  deriving DecidableEq, Repr

def ShapeError.message : ShapeError → String
  | .invalidType found expected => "invalid type: " ++ found ++ ", expected " ++ expected
  | .missingField name => "missing field " ++ TraitMock.Text.ticked name
  | .duplicateField name => "duplicate field " ++ TraitMock.Text.ticked name
  | .invalidLength length expected => "invalid length " ++ toString length ++ ", expected " ++ expected

def Error.message : Error → String
  | .syntaxFault f => f.message
  | .shape e => e.message

/-- What reading gives. -/
abbrev Read (α : Type) := Except Error α

/-- The style of a floating-point number in a message: positional from `0.00001` up to below `10 ^ 16`, and a whole
number keeps one zero behind its point. -/
def numberStyle : Decimal.Style := ⟨-4, 16, ".0", "NaN", "inf"⟩

def Number.describe : Number → String
  | .integer n => "integer " ++ TraitMock.Text.ticked (toString n)
  | .float x => "floating point " ++ TraitMock.Text.ticked ((Decimal.Number.ofFloat x).write numberStyle)

/-- The failure of a value that has another type than expected. -/
def mismatch (expected : String) (j : Json) : Error :=
  let found := fun (s : String) => Error.shape (.invalidType s expected)
  match j with
  | .null => found "null"
  | .bool b => found ("boolean " ++ TraitMock.Text.ticked (if b then "true" else "false"))
  | .number (.ok n) => found n.describe
  | .number (.error f) => .syntaxFault f
  | .string ⟨s, none⟩ => found ("string " ++ TraitMock.Text.quoted s)
  | .string ⟨_, some f⟩ => .syntaxFault f
  | .array _ _ => found "sequence"
  | .object _ _ => found "map"
  | .broken b => .syntaxFault b.read

def readBool : Json → Read Bool
  | .bool b => .ok b
  | j => .error (mismatch "a boolean" j)

/-- Reads a text; `expected` says what it is. -/
def readText (expected : String) : Json → Read String
  | .string ⟨s, none⟩ => .ok s
  | j => .error (mismatch expected j)

def readString : Json → Read String := readText "a string"

/-- Reads the text of a path. -/
def readPath : Json → Read String := readText "path string"

/-- Reads a value or nothing. -/
def readOption (read : Json → Read α) : Json → Read (Option α)
  | .null => .ok none
  | j => some <$> read j

/-- Reads a list. -/
def readList (read : Json → Read α) : Json → Read (List α)
  | .array items ending? => do
    let as ← items.mapM read
    match ending? with
    | some b => .error (.syntaxFault b.read)
    | none => pure as
  | j => .error (mismatch "a sequence" j)

/-- The shape of a record that is read into a state of type `σ`. -/
structure Shape (σ : Type) where
  name : String
  /-- The names of the fields, in the order in which an array holds them. -/
  fields : List String
  /-- The fields that have no default. -/
  required : List String
  /-- Reads one field. -/
  read : σ → String → Json → Read σ

namespace Shape

variable {σ : Type} (shape : Shape σ)

def expected : String := "struct " ++ shape.name

/-- Reads the entries of an object; `seen` holds the fields already read. -/
def readEntries (seen : List String) (s : σ) : List (Text × Json) → Read (σ × List String)
  | [] => .ok (s, seen)
  | (key, j) :: rest =>
    match key.fault? with
    | some f => .error (.syntaxFault f)
    | none =>
      if shape.fields.contains key.text then
        if seen.contains key.text then .error (.shape (.duplicateField key.text))
        else
          match shape.read s key.text j with
          | .ok s' => readEntries (key.text :: seen) s' rest
          | .error e => .error e
      else
        match j.skipFault? with
        | some f => .error (.syntaxFault f)
        | none => readEntries seen s rest

/-- Reads the items of an array into the fields; gives the fields for which there was no item, and the items
for which there was no field. -/
def readItems (s : σ) : List String → List Json → Read (σ × List String × List Json)
  | name :: names, j :: rest =>
    match shape.read s name j with
    | .ok s' => readItems s' names rest
    | .error e => .error e
  | names, rest => .ok (s, names, rest)

/-- The first required field among those that were not read, with its position. -/
def firstLacking (names : List String) : Option Nat :=
  match names.find? shape.required.contains with
  | some name => some (shape.fields.idxOf name)
  | none => none

/-- Reads a record. -/
def decode (start : σ) : Json → Read σ
  | .object entries ending? => do
    let (s, seen) ← shape.readEntries [] start entries
    match ending? with
    | some b => .error (.syntaxFault b.read)
    | none =>
      match shape.required.find? fun name => !seen.contains name with
      | some name => .error (.shape (.missingField name))
      | none => pure s
  | .array items ending? => do
    let (s, names, more) ← shape.readItems start shape.fields items
    match names, more, ending? with
    | [], [], some b =>
      .error (.syntaxFault (if b.afterComma && b.read ≠ .trailingComma then .trailingCharacters
        else if b.read = .expectedListEnd then .trailingCharacters else b.read))
    | _, [], some b => .error (.syntaxFault b.read)
    | [], [], none => pure s
    | _, _ :: _, _ => .error (.syntaxFault .trailingCharacters)
    | names, [], none =>
      match shape.firstLacking names with
      | some n => .error (.shape (.invalidLength n
          (shape.expected ++ " with " ++ toString shape.fields.length ++
            (if shape.fields.length = 1 then " element" else " elements"))))
      | none => pure s
  | j => .error (mismatch shape.expected j)

end Shape

/-- Reads a whole document: nothing may follow the value. -/
def Document.decode (d : Document) (read : Json → Read α) : Read α := do
  let a ← read d.value
  match d.ending? with
  | some f => .error (.syntaxFault f)
  | none => pure a

end TraitMock.Json
