import TraitMock.Value.Observed

namespace TraitMock

/-- A matcher: its identity and what it tests. -/
structure Matcher where
  id : Nat
  criterion : Criterion

/-- A function that produces a return value: its identity, the qualified name of its type, and what it
    does. -/
structure Producer where
  id : Nat
  typeName : String
  run : List Payload → Except PanicPayload Payload

/-- An argument or a return value. -/
inductive Value where
  /-- Nothing. -/
  | nil
  /-- Stands for every value where an argument is expected. -/
  | wildcard
  /-- Stands for the values that it accepts. -/
  | matcher (m : Matcher)
  | producer (p : Producer)
  | data (d : Datum)

/-- The note that each matcher keeps of its last refusal. -/
structure MatchLog where
  refusal? : Nat → Option Refusal := fun _ => none

/-- Replaces the note of one matcher. -/
def MatchLog.note (log : MatchLog) (id : Nat) (r : Option Refusal) : MatchLog where
  refusal? i := if i = id then r else log.refusal? i

namespace Value

/-- A text. -/
def text (s : String) : Value := .data (.comparable .text (.text s))

/-- A stand-in for an argument that cannot be recorded, named by its type. -/
def placeholder (typeName : String) : Value := .data (.placeholder typeName)

/-- An error. -/
def error (e : ErrorChain) : Value := .data ⟨.error, .error e, .plain⟩

def isNil : Value → Bool
  | .nil => true
  | _ => false

/-- The value as a matcher sees it. -/
def observed : Value → Observed
  | .nil => .nil
  | .wildcard => .wildcard
  | .matcher m => .matcher m.criterion.describe
  | .producer p => .producer p.typeName
  | .data d => .data d

/-- The short name of the value's type, as shown in messages. -/
def typeName (v : Value) : String := v.observed.typeName

/-- The content of a datum of the given type. -/
def content? (type : DataType) : Value → Option Payload
  | .data d => if d.type.name = type.name then some d.content else none
  | _ => none

/-- Equality of values: matchers and producers are equal to themselves only. -/
def deepEqual : Value → Value → Bool
  | .nil, .nil => true
  | .wildcard, .wildcard => true
  | .matcher a, .matcher b => a.id == b.id
  | .producer a, .producer b => a.id == b.id
  | .data a, .data b => a.deepEqual b
  | _, _ => false

/-- Whether the value is a function, which no argument can be expected to equal. -/
def isFunction : Value → Bool
  | .producer _ => true
  | .data d => d.isFunction
  | _ => false

/-- The value as it is shown in messages; a matcher shows its last refusal. -/
def render (log : MatchLog) : Value → String
  | .nil => "(nil)"
  | .wildcard => "(any=mock.Any)"
  | .matcher m =>
    let description := "[" ++ m.criterion.describe ++ "]"
    match log.refusal? m.id with
    | some (.panic message) => description ++ " \x7bpanic: " ++ Text.quoted message ++ "\x7d"
    | some (.error message) => description ++ " \x7berror: " ++ Text.quoted message ++ "\x7d"
    | none => description
  | .producer p => "(" ++ TypeName.short p.typeName ++ "=fn)"
  | .data d => d.render

end Value

namespace Matcher

/-- Whether the matcher accepts a value. -/
def accepts (m : Matcher) (v : Value) : Bool :=
  match m.criterion.judge v.observed with
  | .ok verdict => verdict
  | .error _ => false

/-- The log after the matcher judged a value: a predicate notes its refusal, or that there was none. -/
def noted (m : Matcher) (v : Value) (log : MatchLog) : MatchLog :=
  if m.criterion.isPredicate then
    match m.criterion.judge v.observed with
    | .ok _ => log.note m.id none
    | .error r => log.note m.id (some r)
  else log

/-- The message of the panic that ended the last judgement. -/
def panicMessage? (m : Matcher) (log : MatchLog) : Option String :=
  match log.refusal? m.id with
  | some (.panic message) => some message
  | _ => none

/-- The error that ended the last judgement. -/
def errorMessage? (m : Matcher) (log : MatchLog) : Option String :=
  match log.refusal? m.id with
  | some (.error message) => some message
  | _ => none

end Matcher

end TraitMock
