import TraitMock.Mock.Selection
import TraitMock.Testing.Spy

namespace TraitMock

/-- A call that was answered, with the arguments it was made with. -/
structure Invocation where
  method : String
  args : Arguments
  /-- Whether the stack of the call was recorded. -/
  hasStack : Bool

structure Mock where
  keepsStacks : Bool := false
  /-- The numbers of its expectations, in the order of registration. -/
  expected : List Nat := []
  calls : List Invocation := []
  /-- Values that the test keeps with the mock. -/
  data : List (String × Value) := []
  failed : Bool := false
  /-- The verdict of the audit, once there was one. -/
  audited? : Option Bool := none

/-- Mocks that report to one spy, with all their expectations and the calls they recorded. An expectation is known by its
    number in the session, so that one may require another of any mock, and stays in existence when it is taken off its
    mock. -/
structure Session where
  spy : Spy := {}
  mocks : List Mock := []
  expectations : List Expectation := []
  log : MatchLog := {}

/-- How a mock answers a call. -/
inductive Reply where
  | returned (values : Arguments)
  /-- The call was accepted and ended in a panic. -/
  | panicked (payload : PanicPayload)
  /-- The call was refused, which is a fatal failure of the test. -/
  | rejected (notice : Notice)

namespace Session

def mock? (s : Session) (m : Nat) : Option Mock := s.mocks[m]?

def expectation? (s : Session) (id : Nat) : Option Expectation := s.expectations[id]?

def putMock (s : Session) (m : Nat) (mock : Mock) : Session := { s with mocks := s.mocks.set m mock }

def putExpectation (s : Session) (id : Nat) (e : Expectation) : Session :=
  { s with expectations := s.expectations.set id e }

def helper (s : Session) : Session := { s with spy := s.spy.helper }

def reportError (s : Session) (n : Notice) : Session := { s with spy := s.spy.error n.text }

/-- Adds a mock; its audit is registered as a cleanup. -/
def newMock (s : Session) (keepsStacks : Bool) : Session × Nat :=
  let m := s.mocks.length
  ({ s with mocks := s.mocks ++ [{ keepsStacks }], spy := s.spy.cleanup (.audit m) }, m)

def register (s : Session) (e : Expectation) : Session × Nat :=
  let id := s.expectations.length
  let s := { s with expectations := s.expectations ++ [e] }
  match s.mock? e.owner with
  | some mock => (s.putMock e.owner { mock with expected := mock.expected ++ [id] }, id)
  | none => (s, id)

def on (s : Session) (m : Nat) (method : String) (pattern : Arguments) (location : String) :
    Except UsageError (Session × Nat) := do
  let e ← Expectation.on m method pattern location
  pure (s.register e)

def onAny (s : Session) (m : Nat) (method location : String) : Session × Nat :=
  s.register (Expectation.onAny m method location)

def answerWith (s : Session) (m : Nat) (proxy : Proxy) (location : String) :
    Except UsageError (Session × Nat) := do
  let e ← Expectation.answering m proxy location
  pure (s.register e)

/-- A setting without the prerequisites that are no expectations of the session. -/
def known (s : Session) : Setting → Setting
  | .requires expectations => .requires (expectations.filter (· < s.expectations.length))
  | setting => setting

def configure (s : Session) (id : Nat) (setting : Setting) : Except UsageError Session :=
  match s.expectation? id with
  | none => .ok s
  | some e =>
    match e.apply (s.known setting) with
    | .ok e' => .ok (s.putExpectation id e')
    | .error err => .error err

/-- The expectations of a mock with their numbers, in the order of registration. -/
def expected (s : Session) (m : Nat) : List Selection.Candidate :=
  match s.mock? m with
  | none => []
  | some mock => mock.expected.filterMap fun id => (s.expectation? id).map (id, ·)

/-- Takes an expectation off a mock; it is an error if the mock does not have it. -/
def unset (s : Session) (m id : Nat) : Session :=
  let s := s.helper
  match s.mock? m, s.expectation? id with
  | some mock, some e =>
    if mock.expected.contains id then
      s.putMock m { mock with expected := mock.expected.filter (· ≠ id) }
    else
      s.reportError ((Notice.row ⟨Notice.expectationNotFound, [], []⟩ "method" e.signature).row
        "created at" e.location)
  | _, _ => s

/-- The prerequisites of an expectation that are not satisfied. -/
def unmet (s : Session) (e : Expectation) : List Expectation :=
  (e.requires.filterMap s.expectation?).filter fun r => !r.satisfied

/-- The failure of a call of mock `m` whose prerequisites are not satisfied. -/
def prerequisiteFailure (m : Nat) (e : Expectation) (unmet : List Expectation) : Notice :=
  unmet.foldl
    (fun n r =>
      let owner := if r.owner = m then "the same mock" else "a different mock"
      (n.row "requires" (r.signature ++ " (" ++ owner ++ ")")).row "created at" r.location)
    (Notice.row ⟨Notice.prerequisitesNotMet, [], []⟩ "method" e.signature)

/-- Picks the expectation that answers a call and checks its prerequisites. -/
def choose (s : Session) (m : Nat) (method : String) (args : Arguments) : Except Notice Nat × MatchLog :=
  match Selection.select s.log (s.expected m) method args with
  | (.error n, log) => (.error n, log)
  | (.ok id, log) =>
    match s.expectation? id with
    | none => (.ok id, log)
    | some e =>
      match s.unmet e with
      | [] => (.ok id, log)
      | unmet => (.error (prerequisiteFailure m e unmet), log)

/-- Refuses a call: the mock has failed, and so has the test. -/
def reject (s : Session) (m : Nat) (n : Notice) : Session :=
  let s := match s.mock? m with
    | some mock => s.putMock m { mock with failed := true }
    | none => s
  { s with spy := s.spy.fatal n.text }

/-- Records a call with the arguments it was made with. -/
def record (s : Session) (m : Nat) (method : String) (args : Arguments) : Session :=
  match s.mock? m with
  | some mock => s.putMock m { mock with calls := mock.calls ++ [⟨method, args, mock.keepsStacks⟩] }
  | none => s

/-- A call of a method: it is recorded, counted and answered by the expectation chosen, or refused. -/
def call (s : Session) (m : Nat) (method : String) (args : Arguments) : Session × Reply :=
  let s := s.helper
  match s.choose m method args with
  | (.error n, log) => ({ s with log := log }.reject m n, .rejected n)
  | (.ok id, log) =>
    -- recorded and counted before there is an answer, so a panic in the answer undoes neither
    let s := { s with log := log }.record m method args
    match s.expectation? id with
    | none => (s, .returned [])
    | some e =>
      let s := s.putExpectation id e.counted
      match e.answer log args with
      | .ok values => (s, .returned values)
      | .error p => (s, .panicked p)

/-- Whether a call would find an expectation that answers it; prerequisites are not asked for. -/
def callable (s : Session) (m : Nat) (method : String) (args : Arguments) : Session × Except Notice Unit :=
  let (r, log) := Selection.select s.log (s.expected m) method args
  ({ s with log := log }, r.map fun _ => ())

def failed (s : Session) (m : Nat) : Bool := (s.mock? m).any (·.failed)

def calls (s : Session) (m : Nat) : List Invocation := ((s.mock? m).map (·.calls)).getD []

def setData (s : Session) (m : Nat) (key : String) (v : Value) : Session :=
  match s.mock? m with
  | some mock => s.putMock m { mock with data := (key, v) :: mock.data.filter (·.1 ≠ key) }
  | none => s

def data? (s : Session) (m : Nat) (key : String) : Option Value := do
  let mock ← s.mock? m
  (mock.data.find? (·.1 == key)).map (·.2)

def callsWord (n : Nat) : String := if n = 1 then "call" else "calls"

def auditLine (width : Nat) (e : Expectation) : String :=
  let want := max e.times 1
  Notice.padRight width e.signature ++ "   expected " ++ toString want ++ " " ++ callsWord want ++
    " received " ++ toString e.count ++ " " ++ callsWord e.count

/-- The report of the audit on the expectations that are not satisfied. -/
def auditFailure (unsatisfied : List Expectation) : Notice :=
  let width := Notice.widest (unsatisfied.map Expectation.signature)
  ⟨Notice.tooFewCalls, [], unsatisfied.map (auditLine width)⟩

/-- Audits a mock: all its expectations have to be satisfied. There is one audit; it fails without a further
    report if a call was refused, and later ones repeat its verdict. -/
def audit (s : Session) (m : Nat) : Session × Bool :=
  let s := s.helper
  match s.mock? m with
  | none => (s, true)
  | some mock =>
    match mock.audited? with
    | some verdict => (s, verdict)
    | none =>
      -- the refused call was reported when it was made
      if mock.failed then (s.putMock m { mock with audited? := some false }, false)
      else
        match ((s.expected m).map (·.2)).filter fun e => !e.satisfied with
        | [] => (s.putMock m { mock with audited? := some true }, true)
        | unsatisfied =>
          ((s.putMock m { mock with failed := true, audited? := some false }).reportError
            (auditFailure unsatisfied), false)

/-- Checks how often a method was called. -/
def assertCallCount (s : Session) (m : Nat) (method : String) (want : Nat) : Session × Bool :=
  let s := s.helper
  let have_ := (s.calls m).countP fun c => c.method == method
  if have_ = want then (s, true)
  else
    let signature := match (s.expected m).find? fun c => c.2.method == method with
      | some c => c.2.signature
      | none => Arguments.signature method []
    let header :=
      if have_ = 0 then Notice.neverCalled
      else if have_ < want then Notice.tooFewCalls
      else Notice.tooManyCalls
    (s.reportError (((Notice.row ⟨header, [], []⟩ "method" signature).row "want" (toString want)).row
      "have" (toString have_)), false)

/-- How the cleanups of a session are run. -/
def closing : Closing Session where
  pending s := s.spy.cleanups
  clear s := { s with spy := { s.spy with cleanups := [] } }
  run
    | .audit m, s => ((s.audit m).1, none)
    | .script how text nested, s =>
      let (spy, halt) := (nested.foldl Spy.cleanup s.spy).report how text
      ({ s with spy := spy }, halt)

/-- Ends the test: runs all cleanups. -/
def close (s : Session) : Session × Option Halt := closing.close s

/-- The mock as it is shown; its own number is not. -/
def debug (s : Session) (m : Nat) : String :=
  let mock := (s.mock? m).getD {}
  let shown := (s.expected m).map fun c => Written.leaf c.2.debug
  (Written.record "Mock" [("id", .leaf "<id>"), ("expected", .sequence shown),
    ("calls", .leaf (toString mock.calls.length)),
    ("failed", .leaf (if mock.failed then "true" else "false"))]).compact

end Session

end TraitMock
