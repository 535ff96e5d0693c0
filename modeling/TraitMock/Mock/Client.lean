import TraitMock.Mock.Session
import TraitMock.Value.Capture

namespace TraitMock

/-- One position of what a method returns. -/
structure ReturnSlot where
  type : DataType
  /-- The qualified type of a function that may produce the value from the arguments. -/
  producer? : Option String := none

/-- A method of a generated mock. -/
structure ClientMethod where
  name : String
  params : List Capture
  /-- How each element of a variadic last parameter is recorded. -/
  variadic? : Option Capture := none
  returns : List ReturnSlot := []

namespace ClientMethod

/-- The values recorded for a call; `args` are the arguments and `rest` the elements of the variadic one. -/
def recorded (method : ClientMethod) (args rest : List Payload) : Arguments :=
  method.params.zipWith Capture.record args ++
    match method.variadic? with
    | some capture => rest.map capture.record
    | none => []

/-- The failure of a mock that returns another number of values than the method. -/
def wrongReturns : String := "the number of mocked method returns does not match"

/-- The value of the return position `i`: what a producer makes of the arguments, or the configured value. -/
def returnAt (values : Arguments) (args : List Payload) (i : Nat) (slot : ReturnSlot) :
    Except Halt Datum :=
  match slot.producer?.bind (values.producer? i) with
  | some p =>
    match p.run args with
    | .ok content => .ok (.plain slot.type content)
    | .error payload => .error (.panic payload)
  | none =>
    match values.extract i (.data slot.type) with
    | .ok (.data d) => .ok d
    | .ok _ => .ok (.plain slot.type .unit)
    | .error e => .error (.fatal e.message)

/-- The values of the return positions from `i` on. -/
def returnsFrom (values : Arguments) (args : List Payload) (i : Nat) :
    List ReturnSlot → Except Halt (List Datum)
  | [] => .ok []
  | slot :: rest => do
    let d ← returnAt values args i slot
    let ds ← returnsFrom values args (i + 1) rest
    pure (d :: ds)

end ClientMethod

namespace Session

/-- Halts the test with a fatal failure. -/
def halt (s : Session) : Halt → Session
  | .fatal message => { s with spy := s.spy.fatal message }
  | .panic _ => s

/-- Calls a method of a generated mock that stands on mock `m`. -/
def invoke (s : Session) (m : Nat) (method : ClientMethod) (args rest : List Payload) :
    Session × Except Halt (List Datum) :=
  match s.helper.call m method.name (method.recorded args rest) with
  | (s, .panicked p) => (s, .error (.panic p))
  | (s, .rejected n) => (s, .error (.fatal n.text))
  | (s, .returned values) =>
    if method.returns.isEmpty then (s, .ok [])
    else if values.length ≠ method.returns.length then
      (s.halt (.fatal ClientMethod.wrongReturns), .error (.fatal ClientMethod.wrongReturns))
    else
      match ClientMethod.returnsFrom values args 0 method.returns with
      | .ok ds => (s, .ok ds)
      | .error h => (s.halt h, .error h)

end Session

end TraitMock
