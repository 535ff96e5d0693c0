import TraitMock.Proofs.Mock.Change

namespace TraitMock

/-- Work on something, which may end in a panic. -/
abbrev Working (σ ε : Type) := ExceptT ε (StateM σ)

namespace Working

variable {σ ε α β : Type}

/-- How some work ends, and what it leaves behind. -/
def on (s : σ) (w : Working σ ε α) : Except ε α × σ := w.run.run s

@[simp] theorem on_pure (s : σ) (a : α) : (pure a : Working σ ε α).on s = (.ok a, s) := rfl

@[simp] theorem on_throw (s : σ) (u : ε) : (throw u : Working σ ε α).on s = (.error u, s) := rfl

@[simp] theorem on_lift (s : σ) (r : Except ε α) : (liftM r : Working σ ε α).on s = (r, s) := rfl

@[simp] theorem on_get (s : σ) : (get : Working σ ε σ).on s = (.ok s, s) := rfl

@[simp] theorem on_set (s t : σ) : (set t : Working σ ε PUnit).on s = (.ok (), t) := rfl

@[simp] theorem on_modify (s : σ) (f : σ → σ) : (modify f : Working σ ε PUnit).on s = (.ok (), f s) := rfl

@[simp] theorem on_bind (s : σ) (w : Working σ ε α) (f : α → Working σ ε β) :
    (w >>= f).on s =
      match w.on s with
      | (.ok a, t) => (f a).on t
      | (.error u, t) => (.error u, t) := by
  change (ExceptT.bindCont f (w.on s).1).run (w.on s).2 = _
  rcases w.on s with ⟨_ | a, t⟩ <;> rfl

/-- Panics if an expectation is set up in a way that rules out the next step. -/
def refuseIf (isMisuse : Expectation → Bool) (u : UsageError) : Working Expectation UsageError Unit := do
  if isMisuse (← get) then throw u

@[simp] theorem on_refuseIf (e : Expectation) (isMisuse : Expectation → Bool) (u : UsageError) :
    (refuseIf isMisuse u).on e = (if isMisuse e then .error u else .ok (), e) := by
  cases hmisuse : isMisuse e <;> simp [refuseIf, hmisuse]

end Working

/-- A step of setting up an expectation, in place. -/
def Setting.perform : Setting → Working Expectation UsageError Unit
  | .returns values => do
    Working.refuseIf (·.proxy?.isSome) .returnsOnProxy
    modify fun e => { e with returns := values }
  | .with_ pattern => do
    Expectation.refuseFunctions pattern
    Working.refuseIf (·.proxy?.isNone) .patternWithoutProxy
    modify fun e => { e with pattern? := some pattern }
  | .times n => do
    Working.refuseIf (·.optional) .optionalAndTimes
    modify fun e => { e with times := n }
  | .optional => do
    Working.refuseIf (0 < ·.times) .optionalAndTimes
    modify fun e => { e with optional := true }
  | .panics message => do
    Working.refuseIf (·.proxy?.isSome) .panicOnProxy
    modify fun e => { e with panicMessage? := some message }
  | .until_ messages => do
    modify fun e => { e with delay? := none }
    modify fun e => { e with gate? := some messages }
  | .after milliseconds => do
    modify fun e => { e with gate? := none }
    modify fun e => { e with delay? := some milliseconds }
  | .requires expectations => modify fun e => { e with requires := e.requires ++ expectations }
  | .alter hook => modify fun e => { e with hooks := e.hooks ++ [hook] }

/-- A step of setting up that panics leaves the expectation as it was. -/
theorem Setting.on_perform (e : Expectation) (setting : Setting) :
    setting.perform.on e =
      match e.apply setting with
      | .ok e' => (.ok (), e')
      | .error u => (.error u, e) := by
  cases setting with
  | returns values => cases hproxy : e.proxy?.isSome <;> simp [perform, Expectation.apply, hproxy]
  | with_ pattern =>
    cases hrefuse : Expectation.refuseFunctions pattern with
    | error u =>
      have happly : e.apply (.with_ pattern) = .error u := by
        simp [Expectation.apply, hrefuse, bind, Except.bind]
      simp [perform, hrefuse, happly]
    | ok _ =>
      have happly : e.apply (.with_ pattern) =
          if e.proxy?.isNone then .error .patternWithoutProxy else .ok { e with pattern? := some pattern } := by
        simp [Expectation.apply, hrefuse, bind, Except.bind]
      cases hproxy : e.proxy?.isNone <;> simp [perform, hrefuse, happly, hproxy]
  | times n => cases hoptional : e.optional <;> simp [perform, Expectation.apply, hoptional]
  | optional => by_cases htimes : 0 < e.times <;> simp [perform, Expectation.apply, htimes]
  | panics message => cases hproxy : e.proxy?.isSome <;> simp [perform, Expectation.apply, hproxy]
  | _ => rfl

namespace Expectation

/-- What a call knows of its expectation from the time at which it began. -/
structure Taken where
  /-- How many calls there were before it. -/
  turn : Nat
  /-- The wait, which the expectation lacks meanwhile. -/
  gate? : Option Nat
  panicMessage? : Option String
  hooks : List Hook

/-- Takes the wait off an expectation. -/
def takeGate : StateM Expectation (Option Nat) := modifyGet fun e => (e.gate?, { e with gate? := none })

/-- Waits for a message, if there is a channel to wait for, and puts the wait back unless there is another one now. -/
def waitAt : Option Nat → Working Expectation PanicPayload Unit
  | none => pure ()
  | some messages => modify fun e => if e.gate?.isNone then { e with gate? := some (messages - 1) } else e

/-- A call up to where it waits. -/
def enter : StateM Expectation Taken := do
  let turn := (← get).count
  modify fun e => { e with count := e.count + 1 }
  let gate? ← takeGate
  let { panicMessage?, hooks, .. } ← get
  pure ⟨turn, gate?, panicMessage?, hooks⟩

/-- The rest of a call. The answer that is set up is read behind the hooks. -/
def leave (log : MatchLog) (args : Arguments) (taken : Taken) : Working Expectation PanicPayload Arguments := do
  waitAt taken.gate?
  if let some message := taken.panicMessage? then throw (.text message)
  let altered ← runHooks taken.turn args taken.hooks
  let { proxy?, returns, .. } ← get
  match proxy? with
  | some p => p.call taken.turn log altered
  | none => pure returns

/-- The expectation when a call has begun. -/
def entered (e : Expectation) : Expectation := { e with count := e.count + 1, gate? := none }

/-- The expectation when a call has ended that took a wait, or none. -/
def putBack (e : Expectation) : Option Nat → Expectation
  | none => e
  | some messages => if e.gate?.isNone then { e with gate? := some (messages - 1) } else e

theorem run_enter (e : Expectation) : enter.run e = (⟨e.count, e.gate?, e.panicMessage?, e.hooks⟩, e.entered) := rfl

theorem on_waitAt (e : Expectation) (gate? : Option Nat) : (waitAt gate?).on e = (.ok (), e.putBack gate?) := by
  cases gate? <;> rfl

/-- A call that ends puts back the wait and changes nothing else, also when it panics. -/
theorem on_leave_snd (e : Expectation) (log : MatchLog) (args : Arguments) (taken : Taken) :
    ((leave log args taken).on e).2 = e.putBack taken.gate? := by
  simp only [leave, Working.on_bind, on_waitAt]
  cases hpanic : taken.panicMessage? with
  | some message => simp
  | none =>
    cases hhooks : runHooks taken.turn args taken.hooks with
    | error p => simp
    | ok altered => cases hproxy : (e.putBack taken.gate?).proxy? <;> simp [hproxy]

private theorem putBack_entered (e : Expectation) : e.entered.putBack e.gate? = e.counted := by
  cases hgate : e.gate? <;> simp [entered, putBack, counted, hgate]

/-- A call with nothing in between counts and leaves everything else as it was, also when it panics. -/
theorem on_leave_entered (e : Expectation) (log : MatchLog) (args : Arguments) :
    (leave log args (enter.run e).1).on e.entered = (e.answer log args, e.counted) := by
  simp only [run_enter, leave, Working.on_bind, on_waitAt, putBack_entered, answer]
  cases hpanic : e.panicMessage? with
  | some message => simp
  | none =>
    cases hhooks : runHooks e.count args e.hooks with
    | error p => simp
    | ok altered => cases hproxy : e.proxy? <;> simp [counted, hproxy]

end Expectation

/-- A call that was accepted and has not ended. -/
structure OpenCall where
  mock : Nat
  /-- The number of the expectation that answers it. -/
  expectation : Nat
  args : Arguments
  taken : Expectation.Taken

namespace Session

/-- A call of a method up to where it waits: it is recorded and counted, or refused. -/
def enter (s : Session) (m : Nat) (method : String) (args : Arguments) : Session × (Reply ⊕ OpenCall) :=
  match s.helper.choose m method args with
  | (.error n, log) => ({ s.helper with log := log }.reject m n, .inl (.rejected n))
  | (.ok id, log) =>
    let s := { s.helper with log := log }.record m method args
    match s.expectation? id with
    | none => (s, .inl (.returned []))
    | some e =>
      let (taken, e') := Expectation.enter.run e
      (s.putExpectation id e', .inr ⟨m, id, args, taken⟩)

/-- The rest of a call. -/
def leave (s : Session) (c : OpenCall) : Session × Reply :=
  match s.expectation? c.expectation with
  | none => (s, .returned [])
  | some e =>
    let (answer, e') := (Expectation.leave s.log c.args c.taken).on e
    (s.putExpectation c.expectation e', .ofAnswer answer)

/-- A call of a method in its steps, with nothing else in between. -/
def callInSteps (s : Session) (m : Nat) (method : String) (args : Arguments) : Session × Reply :=
  match s.enter m method args with
  | (t, .inl reply) => (t, reply)
  | (t, .inr c) => t.leave c

theorem expectation?_putExpectation {s : Session} {id : Nat} {e : Expectation} (h : s.expectation? id = some e)
    (e' : Expectation) : (s.putExpectation id e').expectation? id = some e' := by
  obtain ⟨hlt, -⟩ := List.getElem?_eq_some_iff.mp h
  simp [putExpectation, expectation?, hlt]

private theorem putExpectation_putExpectation (s : Session) (id : Nat) (e e' : Expectation) :
    (s.putExpectation id e).putExpectation id e' = s.putExpectation id e' := by
  simp [putExpectation]

private theorem log_record (s : Session) (m : Nat) (method : String) (args : Arguments) :
    (s.record m method args).log = s.log := by
  unfold record
  split <;> rfl

theorem callInSteps_eq (s : Session) (m : Nat) (method : String) (args : Arguments) :
    s.callInSteps m method args = s.call m method args := by
  rcases hchoose : s.helper.choose m method args with ⟨n | id, log⟩
  · simp only [callInSteps, enter, call, hchoose]
  · simp only [callInSteps, enter, call, hchoose]
    cases hfound : ({ s.helper with log := log }.record m method args).expectation? id with
    | none => rfl
    | some e =>
      have hlog : (({ s.helper with log := log }.record m method args).putExpectation id e.entered).log = log :=
        log_record _ m method args
      have hleave := Expectation.on_leave_entered e log args
      rw [Expectation.run_enter] at hleave
      simp only [Expectation.run_enter, leave, expectation?_putExpectation hfound, putExpectation_putExpectation, hlog,
        hleave]
      cases e.answer log args <;> rfl

/-- Sets up an expectation further, in place. -/
def setUp (id : Nat) (setting : Setting) : Working Session UsageError Unit := do
  let s ← get
  match s.expectation? id with
  | none => pure ()
  | some e =>
    let (outcome, e') := (s.known setting).perform.on e
    set (s.putExpectation id e')
    outcome

/-- Registers an expectation, unless there is none to register. -/
def registering (r : Except UsageError Expectation) : Working Session UsageError Unit := do
  let e ← r
  modify fun s => (s.register e).1

/-- An act, in steps. -/
def perform : Act → Working Session UsageError Unit
  | .on m method pattern location => registering (Expectation.on m method pattern location)
  | .onAny m method location => registering (pure (Expectation.onAny m method location))
  | .answerWith m proxy location => registering (Expectation.answering m proxy location)
  | .configure id setting => setUp id setting
  | .call m method args => modify fun s => (s.callInSteps m method args).1
  | a => modify (·.after a)

theorem putExpectation_self {s : Session} {id : Nat} {e : Expectation} (h : s.expectation? id = some e) :
    s.putExpectation id e = s := by
  obtain ⟨hlt, rfl⟩ := List.getElem?_eq_some_iff.mp h
  rw [putExpectation, List.set_getElem_self hlt]

theorem on_setUp (s : Session) (id : Nat) (setting : Setting) :
    (setUp id setting).on s =
      match s.configure id setting with
      | .ok t => (.ok (), t)
      | .error u => (.error u, s) := by
  cases hfound : s.expectation? id with
  | none => simp [setUp, configure, hfound]
  | some e =>
    cases happly : e.apply (s.known setting) with
    | ok e' => simp [setUp, configure, hfound, happly, Setting.on_perform]
    | error u => simp [setUp, configure, hfound, happly, Setting.on_perform, putExpectation_self hfound]

theorem on_registering (s : Session) (r : Except UsageError Expectation) :
    (registering r).on s =
      match r with
      | .ok e => (.ok (), (s.register e).1)
      | .error u => (.error u, s) := by
  cases r <;> simp [registering]

/-- In steps, an act has the effect that it has as a whole. -/
theorem on_perform_snd (s : Session) (a : Act) : ((perform a).on s).2 = s.after a := by
  cases a with
  | on m method pattern location =>
    cases hon : Expectation.on m method pattern location <;>
      simp [perform, on_registering, after, Session.on, hon, bind, Except.bind, pure, Except.pure]
  | answerWith m proxy location =>
    cases hanswering : Expectation.answering m proxy location <;>
      simp [perform, on_registering, after, answerWith, hanswering, bind, Except.bind, pure, Except.pure]
  | configure id setting =>
    cases hconfigure : s.configure id setting <;> simp [perform, on_setUp, after, hconfigure]
  | call m method args => simp [perform, after, callInSteps_eq]
  | _ => rfl

end Session

end TraitMock
