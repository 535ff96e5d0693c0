import TraitMock.Value.Written

namespace TraitMock

/-- One error of a chain: what it is written as, and what it says to its reader. -/
structure ErrorLink where
  written : Written
  message : String
  deriving Repr

/-- Whether two errors read the same. -/
def ErrorLink.sameAs (a b : ErrorLink) : Bool :=
  a.written.compact == b.written.compact && a.message == b.message

/-- An error with the errors that caused it, nearest first. -/
structure ErrorChain where
  head : ErrorLink
  causes : List ErrorLink := []
  deriving Repr

/-- The content of a datum. -/
inductive Payload where
  | unit
  | bool (b : Bool)
  | char (c : Char)
  | int (n : Int)
  | float (x : Float)
  | float32 (x : Float32)
  | text (s : String)
  /-- The parts of a sequence, a tuple or a record, in order. -/
  | parts (items : List Payload)
  /-- One alternative of several, by its name, with its parts. -/
  | choice (tag : String) (items : List Payload)
  | error (chain : ErrorChain)
  /-- Content held at an address that other data may share. -/
  | shared (address : String) (content : Payload)
  /-- A function, known by its type alone. -/
  | function

/-- The address of shared content. -/
def Payload.address? : Payload → Option String
  | .shared address _ => some address
  | _ => none

end TraitMock
