import TraitMock.Mock.Proxy
import TraitMock.Notice

namespace TraitMock

/-- What a hook does to the actual arguments before a call is answered. It may keep a state of its own, so the
    number of earlier calls of its expectation comes first. -/
abbrev Hook := Nat → Arguments → Except PanicPayload Arguments

/-- Which calls of a method are expected, how often, and how they are answered. -/
structure Expectation where
  /-- The mock on which it was registered. -/
  owner : Nat
  method : String
  /-- Where it was registered. -/
  location : String
  /-- The expected arguments. An expectation without them takes any, or leaves them to its proxy. -/
  pattern? : Option Arguments := none
  anyArguments : Bool := false
  proxy? : Option Proxy := none
  returns : Arguments := []
  /-- The expected number of calls; zero stands for one or more. -/
  times : Nat := 0
  optional : Bool := false
  /-- How many messages wait in the channel that each call waits for. -/
  gate? : Option Nat := none
  /-- How many milliseconds each call is delayed. -/
  delay? : Option Nat := none
  hooks : List Hook := []
  panicMessage? : Option String := none
  /-- The expectations that have to be satisfied before a call. -/
  requires : List Nat := []
  count : Nat := 0

/-- Why an expectation cannot be set up in a way. -/
inductive UsageError where
  | returnsOnProxy
  | panicOnProxy
  | patternWithoutProxy
  | optionalAndTimes
  | functionArgument (index : Nat)
  /-- A proxy without a name, by the text that shows it. -/
  | unnamedProxy (shown : String)
  deriving DecidableEq, Repr

def UsageError.message : UsageError → String
  | .returnsOnProxy => "[mock] cannot set return values on a proxy-backed call"
  | .panicOnProxy => "[mock] cannot set a panic value on a proxy-backed call"
  | .patternWithoutProxy => "[mock] with() is only valid on proxy-backed calls"
  | .optionalAndTimes => "[mock] optional() and times() are mutually exclusive"
  | .functionArgument index =>
    "[mock] argument " ++ toString index ++
      " is a function: functions cannot be expected arguments, use a matcher"
  | .unnamedProxy shown => "[mock] cannot derive a method name from " ++ shown ++ ", use Proxy::named"

/-- One step of setting up an expectation. -/
inductive Setting where
  | returns (values : Arguments)
  /-- The arguments that a proxy is used for. -/
  | with_ (pattern : Arguments)
  | times (n : Nat)
  | optional
  | panics (message : String)
  /-- Every call waits for a message of a channel that holds some and has no sender. -/
  | until_ (messages : Nat)
  | after (milliseconds : Nat)
  | requires (expectations : List Nat)
  | alter (hook : Hook)

namespace Expectation

/-- Functions cannot be compared, so none can be expected. -/
def refuseFunctions (pattern : Arguments) : Except UsageError Unit :=
  match pattern.functionAt? with
  | some i => .error (.functionArgument i)
  | none => .ok ()

def on (owner : Nat) (method : String) (pattern : Arguments) (location : String) :
    Except UsageError Expectation := do
  refuseFunctions pattern
  pure ⟨owner, method, location, some pattern, false, none, [], 0, false, none, none, [], none, [], 0⟩

def onAny (owner : Nat) (method location : String) : Expectation :=
  { owner, method, location, anyArguments := true }

/-- Answers the calls of the method after which a proxy is named. -/
def answering (owner : Nat) (proxy : Proxy) (location : String) : Except UsageError Expectation :=
  match proxy.name? with
  | some method => .ok { owner, method, location, proxy? := some proxy }
  | none => .error (.unnamedProxy proxy.debug)

def apply (e : Expectation) : Setting → Except UsageError Expectation
  | .returns values => if e.proxy?.isSome then .error .returnsOnProxy else .ok { e with returns := values }
  | .with_ pattern => do
    refuseFunctions pattern
    if e.proxy?.isNone then .error .patternWithoutProxy else .ok { e with pattern? := some pattern }
  | .times n => if e.optional then .error .optionalAndTimes else .ok { e with times := n }
  | .optional => if 0 < e.times then .error .optionalAndTimes else .ok { e with optional := true }
  | .panics message =>
    if e.proxy?.isSome then .error .panicOnProxy else .ok { e with panicMessage? := some message }
  -- a call waits in one way only, the one asked for last
  | .until_ messages => .ok { e with delay? := none, gate? := some messages }
  | .after milliseconds => .ok { e with gate? := none, delay? := some milliseconds }
  | .requires expectations => .ok { e with requires := e.requires ++ expectations }
  | .alter hook => .ok { e with hooks := e.hooks ++ [hook] }

/-- Whether the number of calls so far is one that was expected. -/
def satisfied (e : Expectation) : Bool :=
  if e.optional then e.times == 0 || e.count ≤ e.times
  else if 0 < e.times then e.count == e.times
  else 1 ≤ e.count

/-- The arguments that the actual ones are compared with. -/
def comparedWith? (e : Expectation) : Option Arguments := if e.anyArguments then none else e.pattern?

/-- Whether the expectation takes any arguments. -/
def acceptsAny (e : Expectation) : Bool := e.anyArguments || (e.proxy?.isSome && e.pattern?.isNone)

/-- The method with the types of the expected arguments. -/
def signature (e : Expectation) : String :=
  match e.proxy?, e.pattern? with
  | some p, none => p.signature
  | _, pattern? =>
    if e.anyArguments then e.method ++ "(...)"
    else match pattern? with
      | some pattern => Arguments.signature e.method pattern
      | none => e.method ++ "()"

def callable (e : Expectation) : Bool := e.times == 0 || e.count < e.times

/-- The failure of one more call than allowed. -/
def tooManyCalls (e : Expectation) (log : MatchLog) : Notice :=
  let n := Notice.row ⟨Notice.tooManyCalls, [], []⟩ "method" e.signature
  let n := match e.comparedWith? with
    | some pattern => n.row "args" (", ".intercalate (pattern.render log))
    | none => n
  (n.row "want" (toString e.times)).row "have" (toString (e.count + 1))

/-- The failure that one more call would be, if any. -/
def callFailure? (e : Expectation) (log : MatchLog) : Option Notice :=
  if e.callable then none else some (e.tooManyCalls log)

def runHooks (turn : Nat) (args : Arguments) : List Hook → Except PanicPayload Arguments
  | [] => .ok args
  | hook :: rest =>
    match hook turn args with
    | .ok args' => runHooks turn args' rest
    | .error p => .error p

/-- The expectation after one more call, which takes a message from the channel it waits for. -/
def counted (e : Expectation) : Expectation :=
  { e with count := e.count + 1, gate? := e.gate?.map (· - 1) }

/-- The answer to a call: a panic if one was asked for, else, after the hooks, what the proxy answers or the
    configured values. -/
def answer (e : Expectation) (log : MatchLog) (args : Arguments) : Except PanicPayload Arguments :=
  match e.panicMessage? with
  | some message => .error (.text message)
  | none =>
    match runHooks e.count args e.hooks with
    | .error p => .error p
    | .ok args' =>
      match e.proxy? with
      | some p => p.call e.count log args'
      | none => .ok e.returns

def debug (e : Expectation) : String :=
  (Written.record "Call" [("signature", .leaf (Text.quoted e.signature)), ("count", .leaf (toString e.count)),
    ("location", .leaf e.location)]).compact

end Expectation

end TraitMock
