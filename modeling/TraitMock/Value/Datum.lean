import TraitMock.Value.DataType

namespace TraitMock

/-- How a datum takes part in a comparison. -/
inductive Recording where
  /-- By what is written of it. -/
  | plain
  /-- By the equality of its type. -/
  | comparable
  /-- By the address of its content. -/
  | shared
  deriving DecidableEq, Repr

/-- Content with its type and the way in which it was recorded. -/
structure Datum where
  type : DataType
  content : Payload
  recording : Recording := .plain

namespace Datum

/-- A datum compared by the equality of its type, if that has one. -/
def comparable (t : DataType) (p : Payload) : Datum :=
  ⟨t, p, if t.equal?.isSome then .comparable else .plain⟩

/-- A stand-in for something that cannot be recorded. -/
def placeholder (typeName : String) : Datum := .comparable .placeholder (.text typeName)

/-- The name that a stand-in stands for. -/
def placeholderName? (d : Datum) : Option String :=
  match d.type.isPlaceholder, d.content with
  | true, .text name => some name
  | _, _ => none

/-- The type name shown to a reader. -/
def shortTypeName (d : Datum) : String := d.placeholderName?.getD d.type.shortName

def written (d : Datum) : Written := d.type.written d.content

/-- Whether two data of one type share an address. -/
def sameAddress (a b : Datum) : Bool :=
  match a.content.address?, b.content.address? with
  | some x, some y => x == y
  | _, _ => false

/-- Whether the equality of the type of `a` holds between two data. -/
def typeEqual (a b : Datum) : Bool :=
  match a.type.equal? with
  | some eq => eq a.content b.content
  | none => false

/-- Equality of data. Data of different types differ. If either side was recorded by its address, addresses
    are compared; else, if either side was recorded with the equality of its type, that one decides; else
    two data are equal when the same is written of them. -/
def deepEqual (a b : Datum) : Bool :=
  if a.type.name ≠ b.type.name then false
  else if a.recording = .shared ∨ b.recording = .shared then a.sameAddress b
  else if a.recording = .comparable ∨ b.recording = .comparable then a.typeEqual b
  else a.written.spread == b.written.spread

/-- The datum as it is shown in messages. -/
def render (d : Datum) : String :=
  match d.placeholderName? with
  | some name => "(" ++ name ++ "=" ++ name ++ ")"
  | none => "(" ++ d.shortTypeName ++ "=" ++ d.written.compact ++ ")"

/-- Whether the type of a datum is a function type. -/
def isFunction (d : Datum) : Bool :=
  let name := d.type.name
  Text.beginsWith name "fn(" || Text.beginsWith name "unsafe fn(" || Text.beginsWith name "extern " ||
    Text.contains name "\x7b\x7bclosure\x7d\x7d"

end Datum

end TraitMock
