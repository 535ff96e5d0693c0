import TraitMock.Value.Basic

namespace TraitMock

namespace Datum

/-- A value that the test wrote: compared by the equality of its type if there is one. -/
def wrap (t : DataType) (p : Payload) : Datum := comparable t p

/-- A value compared by what is written of it; texts keep their own equality. -/
def plain (t : DataType) (p : Payload) : Datum := ⟨t, p, .plain⟩

/-- An owned argument: a copy, compared by the equality of its type if there is one; a stand-in if it cannot be
    copied and written. -/
def capture (t : DataType) (p : Payload) : Datum :=
  if t.cloneable && t.printable then comparable t p else placeholder t.shortName

/-- A borrowed argument, of a type with the name `borrowed`: its owned form of type `owned`, or a stand-in if
    it has none. -/
def captureBorrowed (borrowed : String) (owned : DataType) (p : Payload) : Datum :=
  if owned.cloneable && owned.printable then comparable owned p else placeholder (TypeName.short borrowed)

end Datum

/-- How a method records one of its arguments. -/
inductive Capture where
  | owned (type : DataType)
  | borrowed (name : String) (type : DataType)
  /-- Only a stand-in with this name is recorded. -/
  | placeholder (name : String)

/-- The recorded form of an argument. -/
def Capture.record : Capture → Payload → Value
  | .owned type, p => .data (.capture type p)
  | .borrowed name type, p => .data (.captureBorrowed name type p)
  | .placeholder name, _ => .placeholder name

end TraitMock
