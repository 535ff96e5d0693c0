import TraitMock.Generation.Code
import TraitMock.Generation.LocalNames
import TraitMock.Text.Quoted

namespace TraitMock.Generation

open Signature (LifetimeStyle SigType)

/-- The expression that records a value `name` of type `t`. An element is itself a reference to the value. -/
def recordedValue (name : String) (t : SigType) (isElement : Bool) : String :=
  match t.capture, t with
  | .owned, .reference _ isMutable inner =>
    let place := if isElement then "&**" ++ name else if isMutable then "&*" ++ name else name
    "mock::capture_ref!(" ++ place ++ ", " ++ inner.render .kept ++ ")"
  | .opaqueMark, _ => "mock::Value::opaque(" ++ Text.quoted (t.render .elided) ++ ")"
  | _, _ =>
    "mock::capture!(" ++ (if isElement then name else "&" ++ name) ++ ", " ++ t.render .kept ++ ")"

/-- What is recorded of one parameter. -/
inductive Recording where
  /-- One value. -/
  | single (value : String)
  /-- A value for each element of the parameter. -/
  | each (param value : String)
  deriving DecidableEq, Repr

namespace Recording

/-- What is recorded of some parameters, of which the last one may be recorded by elements of type `element?`. -/
def ofParams (element? : Option SigType) : List Param → List Recording
  | [] => []
  | [p] =>
    match element? with
    | some t => [.each p.name (recordedValue "_v" t true)]
    | none => [.single (recordedValue p.name p.type false)]
  | p :: rest => .single (recordedValue p.name p.type false) :: ofParams element? rest

/-- Records a value. -/
def push (value : String) : Code := .line ("_args.push(" ++ value ++ ");")

def code : Recording → List Code
  | .single value => [push value]
  | .each param value => Code.braced ("for _v in " ++ param ++ ".iter()") [push value]

/-- How many values some parameters take up, as an expression. -/
def capacity (rs : List Recording) : String :=
  match rs.getLast? with
  | some (.each param _) => toString (rs.length - 1) ++ " + " ++ param ++ ".len()"
  | _ => toString rs.length

/-- Records some parameters. -/
def codeOf (rs : List Recording) : List Code :=
  if rs.isEmpty then []
  else
    .line ("let mut _args: Vec<mock::Value> = Vec::with_capacity(" ++ capacity rs ++ ");") ::
      rs.flatMap code

end Recording

/-- A function that produces a returned value. -/
structure Producer where
  /-- The type by which the function is asked for. -/
  type : String
  /-- What it is called with. -/
  args : List String
  /-- The parameters, with their types, of which it gets copies. -/
  copies : List (String × String)
  deriving DecidableEq, Repr

/-- A parameter as it is passed on. -/
def passedOn (p : Param) : String :=
  match p.type with
  | .reference _ true _ => "&mut *" ++ p.name
  | _ => p.name

/-- The function that may produce a value of type `t`. Where several positions are produced, each gets its own
copies of the arguments that are owned. -/
def Producer.ofMethod (m : Method) (t : SigType) : Producer where
  type := m.producerType t
  args := m.params.map passedOn
  copies :=
    if m.returns.length > 1 then
      (m.params.filter fun p => !p.type.isReference).map fun p => (p.name, p.type.render .kept)
    else []

/-- One of the values that a method returns. -/
structure Position where
  index : Nat
  type : String
  /-- The function that may produce it, if the types of all arguments can be named. -/
  producer : Option Producer
  deriving DecidableEq, Repr

namespace Position

/-- The value that was configured for the position. -/
def configured (p : Position) : String :=
  "mock::returned!(_rets, " ++ toString p.index ++ ", " ++ p.type ++ ").unwrap_or_else(|e| self.t.fatal(&e))"

/-- The function that was configured for the position. -/
def produced (p : Position) (f : Producer) : String :=
  "_rets.func::<" ++ f.type ++ ">(" ++ toString p.index ++ ")"

def code (p : Position) : List Code :=
  let start := "let " ++ resultLocal p.index ++ ": " ++ p.type ++ " = "
  match p.producer with
  | none => [.line (start ++ p.configured ++ ";")]
  | some f =>
    let call := "_f(" ++ commas f.args ++ ")"
    if f.copies.isEmpty then
      Code.bracedThen (start ++ "match " ++ p.produced f)
        [.line ("Some(_f) => " ++ call ++ ","), .line ("None => " ++ p.configured ++ ",")] ";"
    else
      let clones := f.copies.map fun c => Code.line ("mock::try_clone!(&" ++ c.1 ++ ", " ++ c.2 ++ "),")
      let found := "Some(_f)" :: f.copies.map fun c => "Some(" ++ c.1 ++ ")"
      [.line (start ++ "match ("), .inner (.line (p.produced f ++ ",") :: clones)] ++
        Code.bracedThen ")"
          [.line ("(" ++ commas found ++ ") => " ++ call ++ ","), .line ("_ => " ++ p.configured ++ ",")] ";"

end Position

/-- A method of a mock. -/
structure MethodBody where
  /-- The name by which the mock is asked. -/
  method : String
  recordings : List Recording
  positions : List Position
  /-- Whether the result is a tuple of the positions. -/
  isTuple : Bool
  deriving DecidableEq, Repr

namespace MethodBody

def isTupleType : Option SigType → Bool
  | some (.tuple _) => true
  | _ => false

/-- The positions from `i` on, which have the given types. -/
def positionsFrom (m : Method) (i : Nat) : List SigType → List Position
  | [] => []
  | t :: rest =>
    ⟨i, t.render .kept, if m.forwards then some (.ofMethod m t) else none⟩ :: positionsFrom m (i + 1) rest

def ofMethod (m : Method) : MethodBody where
  method := m.name
  recordings := Recording.ofParams m.variadicElement? m.params
  positions := positionsFrom m 0 m.returns
  isTuple := isTupleType m.result

/-- The call of the mock. -/
def call (b : MethodBody) : String :=
  "self.mock.call(" ++ inQuotes b.method ++ ", mock::Arguments::" ++
    (if b.recordings.isEmpty then "new()" else "from(_args)") ++ ");"

/-- What is said when the mock returns another number of values than there are positions. -/
def countMismatch : String := "the number of mocked method returns does not match"

/-- The result in terms of the locals. -/
def result (b : MethodBody) : String :=
  let locals := commas (b.positions.map fun p => resultLocal p.index)
  if b.isTuple then "(" ++ locals ++ ")" else locals

def code (b : MethodBody) : List Code :=
  .line "self.t.helper();" :: Recording.codeOf b.recordings ++
    if b.positions.isEmpty then [.line b.call]
    else
      .line ("let _rets = " ++ b.call) ::
        Code.braced ("if _rets.len() != " ++ toString b.positions.length)
          [.line ("self.t.fatal(" ++ inQuotes countMismatch ++ ");")] ++
        b.positions.flatMap Position.code ++ [.line b.result]

end MethodBody

/-- Whether a parameter is left over: one that is recorded by a mark only and passed on to no function. -/
def leavesUnused (m : Method) : Bool :=
  (m.params.any fun p => p.capture = .opaqueMark) && (m.returns.isEmpty || !m.forwards)

/-- A method of a mock with its head. -/
def methodCode (m : Method) : List Code :=
  (if leavesUnused m then [.line "#[allow(unused_variables)]"] else []) ++
    Code.braced m.signature (MethodBody.ofMethod m).code

end TraitMock.Generation
