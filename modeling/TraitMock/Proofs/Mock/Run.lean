import TraitMock.Mock.Session

namespace TraitMock

/-- One thing that a test does with the mocks of a session. A call has changed the session before its hooks and
    its proxy start, so what these do with other mocks stands behind the call. -/
inductive Act where
  | newMock (keepsStacks : Bool)
  | on (m : Nat) (method : String) (pattern : Arguments) (location : String)
  | onAny (m : Nat) (method location : String)
  | answerWith (m : Nat) (proxy : Proxy) (location : String)
  | configure (id : Nat) (setting : Setting)
  | unset (m id : Nat)
  | call (m : Nat) (method : String) (args : Arguments)
  | callable (m : Nat) (method : String) (args : Arguments)
  | setData (m : Nat) (key : String) (v : Value)
  | audit (m : Nat)
  | assertCallCount (m : Nat) (method : String) (want : Nat)

/-- Whether a call was refused. -/
def Reply.isRejected : Reply → Bool
  | .rejected _ => true
  | _ => false

/-- A call together with the reply to it. -/
structure Replied where
  mock : Nat
  method : String
  args : Arguments
  reply : Reply

namespace Session

/-- The session after an act; an act that is a usage error leaves it as it was. -/
def after (s : Session) : Act → Session
  | .newMock keepsStacks => (s.newMock keepsStacks).1
  | .on m method pattern location =>
    match s.on m method pattern location with
    | .ok (t, _) => t
    | .error _ => s
  | .onAny m method location => (s.onAny m method location).1
  | .answerWith m proxy location =>
    match s.answerWith m proxy location with
    | .ok (t, _) => t
    | .error _ => s
  | .configure id setting =>
    match s.configure id setting with
    | .ok t => t
    | .error _ => s
  | .unset m id => s.unset m id
  | .call m method args => (s.call m method args).1
  | .callable m method args => (s.callable m method args).1
  | .setData m key v => s.setData m key v
  | .audit m => (s.audit m).1
  | .assertCallCount m method want => (s.assertCallCount m method want).1

/-- The session after several acts. -/
def run (s : Session) (acts : List Act) : Session := acts.foldl after s

/-- The reply to an act that is a call. -/
def replied (s : Session) : Act → List Replied
  | .call m method args => [⟨m, method, args, (s.call m method args).2⟩]
  | _ => []

/-- The replies to the calls of a run, in order. -/
def replies (s : Session) : List Act → List Replied
  | [] => []
  | a :: rest => s.replied a ++ (s.after a).replies rest

/-- Every act of a run is permitted in the session in which it is done. -/
def Along (permitted : Session → Act → Prop) (s : Session) : List Act → Prop
  | [] => True
  | a :: rest => permitted s a ∧ Along permitted (s.after a) rest

@[simp] theorem run_nil (s : Session) : s.run [] = s := rfl

@[simp] theorem run_cons (s : Session) (a : Act) (acts : List Act) :
    s.run (a :: acts) = (s.after a).run acts := rfl

theorem run_append (s : Session) (acts later : List Act) :
    s.run (acts ++ later) = (s.run acts).run later :=
  List.foldl_append

theorem Along.append {permitted : Session → Act → Prop} {s : Session} {acts later : List Act}
    (h : s.Along permitted (acts ++ later)) :
    s.Along permitted acts ∧ (s.run acts).Along permitted later := by
  induction acts generalizing s with
  | nil => exact ⟨trivial, h⟩
  | cons a acts ih =>
    obtain ⟨hfirst, hrest⟩ := h
    obtain ⟨hacts, hlater⟩ := ih hrest
    exact ⟨⟨hfirst, hacts⟩, hlater⟩

/-- What holds of a session and is kept by every permitted act holds after every run of permitted acts. -/
theorem Along.keeps {permitted : Session → Act → Prop} {P : Session → Prop} {s : Session} {acts : List Act}
    (h : s.Along permitted acts) (hstart : P s)
    (hstep : ∀ t a, permitted t a → P t → P (t.after a)) : P (s.run acts) := by
  induction acts generalizing s with
  | nil => exact hstart
  | cons a acts ih =>
    obtain ⟨hfirst, hrest⟩ := h
    exact ih hrest (hstep s a hfirst hstart)

/-- What holds of a session and is kept by every act holds after every run. -/
theorem run_keeps {P : Session → Prop} {s : Session} (acts : List Act) (hstart : P s)
    (hstep : ∀ t a, P t → P (t.after a)) : P (s.run acts) := by
  induction acts generalizing s with
  | nil => exact hstart
  | cons a acts ih => exact ih (hstep s a hstart)

end Session

end TraitMock
