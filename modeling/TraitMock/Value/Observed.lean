import TraitMock.Value.Datum

namespace TraitMock

/-- Why code stopped before it gave a value: with a message, or with something that is no text. -/
inductive PanicPayload where
  | text (message : String)
  | other
  deriving DecidableEq, Repr

/-- The message recorded for a panic. -/
def PanicPayload.message : PanicPayload → String
  | .text message => message
  | .other => "non-string panic payload"

/-- Why a matcher gave no verdict on a value. -/
inductive Refusal where
  | error (message : String)
  | panic (message : String)
  deriving DecidableEq, Repr

/-- An actual argument as a matcher sees it. -/
inductive Observed where
  | nil
  | wildcard
  /-- Another matcher, by its description. -/
  | matcher (description : String)
  /-- A function that produces values, by its qualified type name. -/
  | producer (typeName : String)
  | data (d : Datum)

/-- The type name of what was observed. -/
def Observed.typeName : Observed → String
  | .nil => "<nil>"
  | .wildcard => "mock.Any"
  | .matcher description => description
  | .producer name => TypeName.short name
  | .data d => d.shortTypeName

/-- What a matcher tests. -/
inductive Criterion where
  /-- The type has this name, qualified or short. -/
  | typeNamed (name : String)
  /-- The type is the one with this qualified name. -/
  | typeIs (name : String)
  /-- A predicate accepts the value. -/
  | predicate (description : String) (test : Observed → Except Refusal Bool)

namespace Criterion

/-- A description of the test, shown in messages. -/
def describe : Criterion → String
  | .typeNamed name => "mock.MatchType=" ++ name
  | .typeIs name => "mock.MatchOfType=" ++ TypeName.short name
  | .predicate description _ => description

/-- The verdict on a value, or the reason why there is none. -/
def judge : Criterion → Observed → Except Refusal Bool
  | .typeNamed name, .data d => .ok (d.type.name == name || d.shortTypeName == name)
  | .typeNamed name, .producer type => .ok (TypeName.short type == name)
  | .typeNamed _, _ => .ok false
  | .typeIs name, .data d => .ok (d.type.name == name)
  | .typeIs _, _ => .ok false
  | .predicate _ test, v => test v

/-- Whether judging leaves a note of how it ended. -/
def isPredicate : Criterion → Bool
  | .predicate _ _ => true
  | _ => false

/-- Accepts the values of one type that `test` accepts. Nothing is not a value of any type, which is an error;
    a value of another type is not accepted. -/
def byType (type : DataType) (test : Payload → Except PanicPayload Bool) : Criterion :=
  let name := type.shortName
  .predicate ("mock.MatchBy=fn(" ++ name ++ ") -> bool") fun
    | .nil => .error (.error ("[mock] MatchBy: nil is not assignable to " ++ name))
    | .data d =>
      if d.type.name = type.name then
        match test d.content with
        | .ok b => .ok b
        | .error p => .error (.panic p.message)
      else .ok false
    | _ => .ok false

/-- Accepts the values that `test` accepts, which sees all of them. -/
def byValue (test : Observed → Except PanicPayload Bool) : Criterion :=
  .predicate "mock.MatchBy=fn(Value) -> bool" fun v =>
    match test v with
    | .ok b => .ok b
    | .error p => .error (.panic p.message)

/-- Accepts everything but nothing. -/
def notNil : Criterion :=
  .predicate "mock.NotNil" fun
    | .nil => .ok false
    | _ => .ok true

/-- Accepts shared content of one type at one address. -/
def same (type : DataType) (content : Payload) : Criterion :=
  .predicate "mock.Same=<address>" fun
    | .data d => .ok (Datum.deepEqual ⟨type, content, .shared⟩ d)
    | _ => .ok false

/-- The error that a value holds. -/
def errorOf? : Observed → Option ErrorChain
  | .data ⟨type, .error chain, _⟩ => if type.name = DataType.error.name then some chain else none
  | _ => none

/-- Accepts errors whose message has a part. -/
def errorContains (fragment : String) : Criterion :=
  .predicate ("mock.ErrorContains=" ++ Text.quoted fragment) fun v =>
    .ok ((errorOf? v).any fun e => Text.contains e.head.message fragment)

/-- Accepts errors that read like `target` or have a cause that does. -/
def errorIs (target : ErrorChain) : Criterion :=
  .predicate ("mock.ErrorIs=" ++ Text.quoted target.head.message) fun v =>
    .ok ((errorOf? v).any fun e => (e.head :: e.causes).any (ErrorLink.sameAs target.head))

end Criterion

end TraitMock
