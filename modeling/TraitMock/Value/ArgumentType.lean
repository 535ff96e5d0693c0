import TraitMock.Value.Capture

namespace TraitMock

/-- A type of arguments, as far as wrapping tells types apart. -/
inductive ArgumentType where
  | value
  | matcher
  | producer
  /-- Texts that are part of the program. -/
  | fixedText
  /-- Errors of any kind, each in a box of its own. -/
  | boxedError
  | data (type : DataType)

namespace ArgumentType

/-- What an argument of the type holds. -/
abbrev Content : ArgumentType → Type
  | .value => Value
  | .matcher => Matcher
  | .producer => Producer
  | .fixedText => String
  | .boxedError => ErrorChain
  | .data _ => Payload

def name : ArgumentType → String
  | .value => "mockkit_mock::value::Value"
  | .matcher => "mockkit_mock::matcher::Matcher"
  | .producer => "mockkit_mock::value::FuncValue"
  | .fixedText => "&str"
  | .boxedError => "alloc::boxed::Box<dyn core::error::Error + core::marker::Send + core::marker::Sync>"
  | .data t => t.name

def cloneable : ArgumentType → Bool
  | .boxedError => false
  | .data t => t.cloneable
  | _ => true

def printable : ArgumentType → Bool
  | .data t => t.printable
  | _ => true

/-- The type's own equality, if it has one. -/
def equal? : (t : ArgumentType) → Option (t.Content → t.Content → Bool)
  | .fixedText => some (· == ·)
  | .data t => t.equal?
  | .value | .matcher | .producer | .boxedError => none

/-- How arguments of the type are written, if they become data. -/
def written? : (t : ArgumentType) → Option (t.Content → Written)
  | .fixedText => some fun s => .leaf (Text.quoted s)
  | .boxedError => some fun e => e.head.written
  | .data t => some t.written
  | .value | .matcher | .producer => none

end ArgumentType

namespace Value

/-- An argument as a value; data is compared by what is written of it, texts keep their own equality. -/
def new : (t : ArgumentType) → t.Content → Value
  | .value, v => v
  | .matcher, m => .matcher m
  | .producer, p => .producer p
  | .fixedText, s => .text s
  | .boxedError, e => .error e
  | .data t, p => .data (.plain t p)

/-- An argument as a value; data of its own type is compared by the equality of that type. -/
def comparable : (t : ArgumentType) → t.Content → Value
  | .data t, p => .data (.comparable t p)
  | t, c => new t c

/-- A value that the test wrote, with the equality of its type if there is one. -/
def wrap (t : ArgumentType) (c : t.Content) : Value :=
  if t.equal?.isSome then comparable t c else new t c

/-- An owned argument: a copy, with the equality of its type if there is one; a stand-in if it cannot be copied
    and written. -/
def capture (t : ArgumentType) (c : t.Content) : Value :=
  if t.cloneable && t.printable then wrap t c else placeholder (TypeName.short t.name)

end Value

end TraitMock
