import TraitMock.Proofs.Mock.Choice

namespace TraitMock.Expectation

/-- An expectation as it is registered, before it is set up further. -/
structure IsNew (e : Expectation) : Prop where
  count : e.count = 0
  requires : e.requires = []

/-- What a step of setting up makes of an expectation, and what it requires of it. -/
inductive SetUp (e : Expectation) : Setting → Expectation → Prop where
  | returns (values : Arguments) (hproxy : e.proxy? = none) : SetUp e (.returns values) { e with returns := values }
  | with_ (pattern : Arguments) (hallowed : refuseFunctions pattern = .ok ()) (hproxy : e.proxy? ≠ none) :
    SetUp e (.with_ pattern) { e with pattern? := some pattern }
  | times (n : Nat) (hoptional : e.optional = false) : SetUp e (.times n) { e with times := n }
  | optional (htimes : e.times = 0) : SetUp e .optional { e with optional := true }
  | panics (message : String) (hproxy : e.proxy? = none) :
    SetUp e (.panics message) { e with panicMessage? := some message }
  | until_ (messages : Nat) : SetUp e (.until_ messages) { e with delay? := none, gate? := some messages }
  | after (milliseconds : Nat) : SetUp e (.after milliseconds) { e with gate? := none, delay? := some milliseconds }
  | requires (expectations : List Nat) :
    SetUp e (.requires expectations) { e with requires := e.requires ++ expectations }
  | alter (hook : Hook) : SetUp e (.alter hook) { e with hooks := e.hooks ++ [hook] }

theorem setUp_of_apply {e e' : Expectation} {setting : Setting} (h : e.apply setting = .ok e') :
    SetUp e setting e' := by
  cases setting with
  | returns values =>
    cases hproxy : e.proxy? with
    | some p => simp [apply, hproxy] at h
    | none =>
      obtain rfl : { e with returns := values } = e' := by simpa [apply, hproxy] using h
      exact .returns values hproxy
  | with_ pattern =>
    cases hallowed : refuseFunctions pattern with
    | error u => simp [apply, hallowed, bind, Except.bind] at h
    | ok _ =>
      cases hproxy : e.proxy? with
      | none => simp [apply, hallowed, hproxy, bind, Except.bind] at h
      | some p =>
        obtain rfl : { e with pattern? := some pattern } = e' := by
          simpa [apply, hallowed, hproxy, bind, Except.bind] using h
        exact .with_ pattern hallowed (by simp [hproxy])
  | times n =>
    cases hoptional : e.optional with
    | true => simp [apply, hoptional] at h
    | false =>
      obtain rfl : { e with times := n } = e' := by simpa [apply, hoptional] using h
      exact .times n hoptional
  | optional =>
    by_cases htimes : 0 < e.times
    · simp [apply, htimes] at h
    · obtain rfl : { e with optional := true } = e' := by simpa [apply, htimes] using h
      exact .optional (by omega)
  | panics message =>
    cases hproxy : e.proxy? with
    | some p => simp [apply, hproxy] at h
    | none =>
      obtain rfl : { e with panicMessage? := some message } = e' := by simpa [apply, hproxy] using h
      exact .panics message hproxy
  | until_ messages =>
    cases h
    exact .until_ messages
  | after milliseconds =>
    cases h
    exact .after milliseconds
  | requires expectations =>
    cases h
    exact .requires expectations
  | alter hook =>
    cases h
    exact .alter hook

end TraitMock.Expectation

namespace TraitMock.Act

/-- Whether an act is meant to register an expectation. -/
def isRegistration : Act → Bool
  | .on .. => true
  | .onAny .. => true
  | .answerWith .. => true
  | _ => false

/-- The expectation that an act registers, unless it is a usage error. -/
def registered? : Act → Option Expectation
  | .on m method pattern location => (Expectation.on m method pattern location).toOption
  | .onAny m method location => some (Expectation.onAny m method location)
  | .answerWith m proxy location => (Expectation.answering m proxy location).toOption
  | _ => none

/-- The expectations that acts register. -/
inductive Registers : Act → Expectation → Prop where
  | on {pattern : Arguments} (m : Nat) (method location : String)
      (hallowed : Expectation.refuseFunctions pattern = .ok ()) :
    Registers (.on m method pattern location) { owner := m, method, location, pattern? := some pattern }
  | onAny (m : Nat) (method location : String) :
    Registers (.onAny m method location) { owner := m, method, location, anyArguments := true }
  | answerWith {proxy : Proxy} {method : String} (m : Nat) (location : String) (hname : proxy.name? = some method) :
    Registers (.answerWith m proxy location) { owner := m, method, location, proxy? := some proxy }

theorem registers_of_registered? {a : Act} {e : Expectation} (h : a.registered? = some e) : a.Registers e := by
  cases a with
  | on m method pattern location =>
    cases hallowed : Expectation.refuseFunctions pattern with
    | error u => simp [registered?, Expectation.on, hallowed, bind, Except.bind, Except.toOption] at h
    | ok _ =>
      simp only [registered?, Expectation.on, hallowed, bind, Except.bind, pure, Except.pure, Except.toOption,
        Option.some.injEq] at h
      subst h
      exact .on m method location hallowed
  | onAny m method location =>
    cases h
    exact .onAny m method location
  | answerWith m proxy location =>
    cases hname : proxy.name? with
    | none => simp [registered?, Expectation.answering, hname, Except.toOption] at h
    | some method =>
      simp only [registered?, Expectation.answering, hname, Except.toOption, Option.some.injEq] at h
      subst h
      exact .answerWith m location hname
  | _ => simp [registered?] at h

theorem isNew_of_registered? {a : Act} {e : Expectation} (h : a.registered? = some e) : e.IsNew := by
  cases registers_of_registered? h <;> exact ⟨rfl, rfl⟩

end TraitMock.Act

namespace TraitMock.Session

/-- The methods of the calls that a mock recorded, with their arguments, in the order of the calls. -/
def ledger (s : Session) (m : Nat) : List (String × Arguments) :=
  (s.calls m).map fun c => (c.method, c.args)

variable {s : Session} {m : Nat}

theorem mock?_putMock {old : Mock} (h : s.mock? m = some old) (mock : Mock) (n : Nat) :
    (s.putMock m mock).mock? n = if n = m then some mock else s.mock? n := by
  have hlt : m < s.mocks.length := (List.getElem?_eq_some_iff.mp h).1
  simp only [mock?, putMock, List.getElem?_set, hlt, if_true]
  by_cases hn : n = m
  · simp [hn]
  · simp [hn, Ne.symm hn]

theorem registered_putMock {old : Mock} (h : s.mock? m = some old) (mock : Mock) (n : Nat) :
    (s.putMock m mock).registered n = if n = m then mock.expected else s.registered n := by
  unfold registered
  rw [mock?_putMock h]
  by_cases hn : n = m <;> simp [hn]

theorem ledger_putMock {old : Mock} (h : s.mock? m = some old) (mock : Mock) (n : Nat) :
    (s.putMock m mock).ledger n =
      if n = m then mock.calls.map (fun c => (c.method, c.args)) else s.ledger n := by
  unfold ledger calls
  rw [mock?_putMock h]
  by_cases hn : n = m <;> simp [hn]

theorem registered_of_mock? {mock : Mock} (h : s.mock? m = some mock) : s.registered m = mock.expected := by
  simp [registered, h]

theorem ledger_of_mock? {mock : Mock} (h : s.mock? m = some mock) :
    s.ledger m = mock.calls.map fun c => (c.method, c.args) := by
  simp [ledger, calls, h]

theorem registered_putMock_of_eq {old mock : Mock} (h : s.mock? m = some old) (hexp : mock.expected = old.expected)
    (n : Nat) : (s.putMock m mock).registered n = s.registered n := by
  rw [registered_putMock h]
  by_cases hn : n = m
  · simp [hn, hexp, registered_of_mock? h]
  · simp [hn]

theorem ledger_putMock_of_eq {old mock : Mock} (h : s.mock? m = some old) (hcalls : mock.calls = old.calls)
    (n : Nat) : (s.putMock m mock).ledger n = s.ledger n := by
  rw [ledger_putMock h]
  by_cases hn : n = m
  · simp [hn, hcalls, ledger_of_mock? h]
  · simp [hn]

/-- A change of the expectations that one mock has leaves the other mocks alone. -/
theorem registered_putMock_cases {old mock : Mock} (h : s.mock? m = some old) (f : List Nat → List Nat)
    (hexp : mock.expected = f old.expected) (n : Nat) :
    (s.putMock m mock).registered n = s.registered n ∨
      n = m ∧ (s.putMock m mock).registered n = f (s.registered n) := by
  rw [registered_putMock h]
  by_cases hn : n = m
  · right
    simp [hn, hexp, registered_of_mock? h]
  · left
    simp [hn]

/-- Two sessions have the same expectations, on the same mocks, and recorded the same calls. -/
structure SameBooks (s t : Session) : Prop where
  expectations : t.expectations = s.expectations
  registered : ∀ n, t.registered n = s.registered n
  ledger : ∀ n, t.ledger n = s.ledger n

theorem SameBooks.refl (s : Session) : SameBooks s s := ⟨rfl, fun _ => rfl, fun _ => rfl⟩

theorem SameBooks.trans {t u : Session} (h : SameBooks s t) (h' : SameBooks t u) : SameBooks s u :=
  ⟨h'.expectations.trans h.expectations, fun n => (h'.registered n).trans (h.registered n),
    fun n => (h'.ledger n).trans (h.ledger n)⟩

/-- Sessions with the same mocks and expectations differ in the spy and the log only. -/
theorem SameBooks.of_eq {t : Session} (hmocks : t.mocks = s.mocks) (hexp : t.expectations = s.expectations) :
    SameBooks s t := by
  refine ⟨hexp, fun n => ?_, fun n => ?_⟩
  · simp only [Session.registered, mock?, hmocks]
  · simp only [Session.ledger, calls, mock?, hmocks]

/-- Replacing a mock by one with the same expectations and calls keeps the books. -/
theorem sameBooks_putMock {old mock : Mock} (h : s.mock? m = some old) (hexp : mock.expected = old.expected)
    (hcalls : mock.calls = old.calls) : SameBooks s (s.putMock m mock) :=
  ⟨rfl, registered_putMock_of_eq h hexp, ledger_putMock_of_eq h hcalls⟩

theorem sameBooks_newMock (keepsStacks : Bool) : SameBooks s (s.newMock keepsStacks).1 := by
  have hmock : ∀ n, (s.newMock keepsStacks).1.mock? n = s.mock? n ∨
      s.mock? n = none ∧ (s.newMock keepsStacks).1.mock? n = some { keepsStacks } := by
    intro n
    simp only [newMock, mock?]
    rcases Nat.lt_trichotomy n s.mocks.length with hlt | heq | hgt
    · exact .inl (List.getElem?_append_left hlt)
    · subst heq
      exact .inr (by simp)
    · left
      rw [List.getElem?_eq_none (by simp; omega), List.getElem?_eq_none (by omega)]
  refine ⟨rfl, fun n => ?_, fun n => ?_⟩
  · rcases hmock n with h | ⟨hnone, hnew⟩
    · simp [Session.registered, h]
    · simp [Session.registered, hnone, hnew]
  · rcases hmock n with h | ⟨hnone, hnew⟩
    · simp [Session.ledger, calls, h]
    · simp [Session.ledger, calls, hnone, hnew]

theorem sameBooks_reject (n : Notice) : SameBooks s (s.reject m n) := by
  unfold reject
  cases hmock : s.mock? m with
  | none => exact .of_eq rfl rfl
  | some mock =>
    have hput : SameBooks s (s.putMock m { mock with failed := true }) := sameBooks_putMock hmock rfl rfl
    exact hput.trans (.of_eq rfl rfl)

theorem sameBooks_setData (key : String) (v : Value) : SameBooks s (s.setData m key v) := by
  unfold setData
  cases hmock : s.mock? m with
  | none => exact .refl s
  | some mock => exact sameBooks_putMock hmock rfl rfl

theorem sameBooks_audit : SameBooks s (s.audit m).1 := by
  have hhelper : SameBooks s s.helper := .of_eq rfl rfl
  refine hhelper.trans ?_
  unfold audit
  cases hmock : s.helper.mock? m with
  | none => simp only [hmock]; exact .refl _
  | some mock =>
    simp only [hmock]
    split
    · exact .refl _
    · split
      · exact sameBooks_putMock hmock rfl rfl
      · split
        · exact sameBooks_putMock hmock rfl rfl
        · have hput : SameBooks s.helper
              (s.helper.putMock m { mock with failed := true, audited? := some false }) :=
            sameBooks_putMock hmock rfl rfl
          exact hput.trans (.of_eq rfl rfl)

theorem sameBooks_assertCallCount (method : String) (want : Nat) :
    SameBooks s (s.assertCallCount m method want).1 := by
  unfold assertCallCount
  dsimp only
  split <;> exact .of_eq rfl rfl

theorem sameBooks_callable (method : String) (args : Arguments) :
    SameBooks s (s.callable m method args).1 :=
  .of_eq rfl rfl

/-- An expectation that is registered gets the next number, which its mock has last if there is such a mock. -/
theorem registered_register (s : Session) (e : Expectation) (n : Nat) :
    (s.register e).1.registered n =
      s.registered n ++ if n = e.owner ∧ n < s.mocks.length then [s.expectations.length] else [] := by
  let added : Session := { s with expectations := s.expectations ++ [e] }
  cases hmock : added.mock? e.owner with
  | none =>
    have hge : s.mocks.length ≤ e.owner := List.getElem?_eq_none_iff.mp hmock
    have hnot : ¬(n = e.owner ∧ n < s.mocks.length) := by omega
    simp only [register]
    rw [show Session.mock? _ e.owner = none from hmock, if_neg hnot, List.append_nil]
    rfl
  | some mock =>
    have hlt : e.owner < s.mocks.length := (List.getElem?_eq_some_iff.mp hmock).1
    simp only [register]
    rw [show Session.mock? _ e.owner = some mock from hmock]
    dsimp only
    rw [registered_putMock hmock]
    by_cases hn : n = e.owner
    · subst hn
      have hold : s.registered e.owner = mock.expected := registered_of_mock? hmock
      rw [if_pos rfl, if_pos ⟨rfl, hlt⟩, hold]
    · rw [if_neg hn, if_neg fun h => hn h.1, List.append_nil]
      rfl

theorem log_register (s : Session) (e : Expectation) : (s.register e).1.log = s.log := by
  unfold register
  dsimp only
  split <;> rfl

/-- A new expectation is the last one, and on no mock but its own. -/
theorem register_books (s : Session) (e : Expectation) :
    (s.register e).1.expectations = s.expectations ++ [e] ∧
      (∀ n, (s.register e).1.registered n = s.registered n ∨
        n = e.owner ∧ (s.register e).1.registered n = s.registered n ++ [s.expectations.length]) ∧
      ∀ n, (s.register e).1.ledger n = s.ledger n := by
  let added : Session := { s with expectations := s.expectations ++ [e] }
  have hregistered : ∀ n, (s.register e).1.registered n = s.registered n ∨
      n = e.owner ∧ (s.register e).1.registered n = s.registered n ++ [s.expectations.length] := by
    intro n
    rw [registered_register]
    split
    · rename_i hn
      exact .inr ⟨hn.1, rfl⟩
    · exact .inl (List.append_nil _)
  cases hmock : added.mock? e.owner with
  | none =>
    have hregister : (s.register e).1 = added := by
      simp only [register]
      rw [show Session.mock? _ e.owner = none from hmock]
    exact ⟨by rw [hregister], hregistered, fun n => by rw [hregister]; rfl⟩
  | some mock =>
    have hregister : (s.register e).1 =
        added.putMock e.owner { mock with expected := mock.expected ++ [s.expectations.length] } := by
      simp only [register]
      rw [show Session.mock? _ e.owner = some mock from hmock]
    refine ⟨by rw [hregister]; rfl, hregistered, ?_⟩
    rw [hregister]
    exact ledger_putMock_of_eq hmock rfl

/-- Taking an expectation off a mock changes nothing but which expectations that mock has. -/
theorem unset_books (s : Session) (m id : Nat) :
    (s.unset m id).expectations = s.expectations ∧
      (∀ n, (s.unset m id).registered n = s.registered n ∨
        n = m ∧ (s.unset m id).registered n = (s.registered n).filter (· ≠ id)) ∧
      ∀ n, (s.unset m id).ledger n = s.ledger n := by
  have hkept : ∀ t, SameBooks s t → t.expectations = s.expectations ∧
      (∀ n, t.registered n = s.registered n ∨
        n = m ∧ t.registered n = (s.registered n).filter (· ≠ id)) ∧ ∀ n, t.ledger n = s.ledger n :=
    fun t h => ⟨h.expectations, fun n => .inl (h.registered n), h.ledger⟩
  unfold unset
  cases hmock : s.helper.mock? m with
  | none =>
    simp only [hmock]
    exact hkept _ (.of_eq rfl rfl)
  | some mock =>
    cases hexp : s.helper.expectation? id with
    | none =>
      simp only [hmock, hexp]
      exact hkept _ (.of_eq rfl rfl)
    | some e =>
      simp only [hmock, hexp]
      split
      · exact ⟨rfl, registered_putMock_cases hmock (·.filter (· ≠ id)) rfl, ledger_putMock_of_eq hmock rfl⟩
      · exact hkept _ (.of_eq rfl rfl)

/-- A call that is answered counts the expectation picked and is recorded by its mock alone. -/
theorem Picks.answered_books {id : Nat} {method : String} {args : Arguments} {e : Expectation}
    (h : s.Picks m method args id e) (hmet : s.unmet e = []) :
    (s.call m method args).1.expectations = s.expectations.set id e.counted ∧
      (∀ n, (s.call m method args).1.registered n = s.registered n) ∧
      ∀ n, (s.call m method args).1.ledger n = s.ledger n ++ if n = m then [(method, args)] else [] := by
  obtain ⟨reply, _, hcall⟩ := h.call_of_met hmet
  let start : Session := { s.helper with log := s.selectionLog m method args }
  have hmock : ∃ mock, start.mock? m = some mock := by
    have hid := h.registered
    cases hnone : s.mock? m with
    | none => simp [Session.registered, hnone] at hid
    | some mock => exact ⟨mock, hnone⟩
  obtain ⟨mock, hmock⟩ := hmock
  have hrecord : start.record m method args =
      start.putMock m { mock with calls := mock.calls ++ [⟨method, args, mock.keepsStacks⟩] } := by
    simp only [record, hmock]
  have hput : (s.call m method args).1 = (start.record m method args).putExpectation id e.counted :=
    congrArg Prod.fst hcall
  rw [hput, hrecord]
  refine ⟨rfl, registered_putMock_of_eq hmock rfl, fun n => ?_⟩
  change (start.putMock m _).ledger n = _
  rw [ledger_putMock hmock]
  by_cases hn : n = m
  · have hold : s.ledger m = mock.calls.map fun c => (c.method, c.args) := ledger_of_mock? hmock
    simp [hn, hold]
  · simp only [hn, if_false, List.append_nil]
    rfl

/-- What an act changes: nothing, or one expectation is registered, set up further, taken off its mock or
    answers a call. -/
inductive Change (s : Session) : Act → Session → Prop where
  | same {a : Act} {t : Session} (hbooks : SameBooks s t)
      (hrejected : ∀ r ∈ s.replied a, r.reply.isRejected = true) : Change s a t
  | registered {a : Act} {t : Session} (e : Expectation) (hact : a.registered? = some e) (hsilent : s.replied a = [])
      (hexp : t.expectations = s.expectations ++ [e])
      (hreg : ∀ n, t.registered n = s.registered n ∨
        n = e.owner ∧ t.registered n = s.registered n ++ [s.expectations.length])
      (hledger : ∀ n, t.ledger n = s.ledger n) : Change s a t
  | configured {id : Nat} {setting : Setting} {t : Session} (e e' : Expectation)
      (hfound : s.expectation? id = some e) (happly : e.apply (s.known setting) = .ok e')
      (hexp : t.expectations = s.expectations.set id e') (hreg : ∀ n, t.registered n = s.registered n)
      (hledger : ∀ n, t.ledger n = s.ledger n) : Change s (.configure id setting) t
  | unset {m id : Nat} {t : Session} (hexp : t.expectations = s.expectations)
      (hreg : ∀ n, t.registered n = s.registered n ∨
        n = m ∧ t.registered n = (s.registered n).filter (· ≠ id))
      (hledger : ∀ n, t.ledger n = s.ledger n) : Change s (.unset m id) t
  | answered {m id : Nat} {method : String} {args : Arguments} {t : Session} (e : Expectation) (reply : Reply)
      (hpicks : s.Picks m method args id e) (hmet : s.unmet e = [])
      (hreplied : s.replied (.call m method args) = [⟨m, method, args, reply⟩])
      (hanswered : reply.isRejected = false)
      (hexp : t.expectations = s.expectations.set id e.counted) (hreg : ∀ n, t.registered n = s.registered n)
      (hledger : ∀ n, t.ledger n = s.ledger n ++ if n = m then [(method, args)] else []) :
      Change s (.call m method args) t

/-- An act that is meant to register an expectation does so, or is a usage error. -/
theorem after_registration_cases (s : Session) {a : Act} (h : a.isRegistration = true) :
    (a.registered? = none ∧ s.after a = s) ∨
      ∃ e, a.registered? = some e ∧ s.after a = (s.register e).1 := by
  cases a with
  | on m method pattern location =>
    cases hon : Expectation.on m method pattern location with
    | error u => simp [Act.registered?, after, Session.on, hon, bind, Except.bind, Except.toOption]
    | ok e => simp [Act.registered?, after, Session.on, hon, bind, Except.bind, pure, Except.pure, Except.toOption]
  | onAny m method location => exact .inr ⟨_, rfl, rfl⟩
  | answerWith m proxy location =>
    cases hanswering : Expectation.answering m proxy location with
    | error u => simp [Act.registered?, after, answerWith, hanswering, bind, Except.bind, Except.toOption]
    | ok e =>
      simp [Act.registered?, after, answerWith, hanswering, bind, Except.bind, pure, Except.pure, Except.toOption]
  | _ => cases h

private theorem isRegistration_of_registered? {a : Act} {e : Expectation} (h : a.registered? = some e) :
    a.isRegistration = true := by
  cases a.registers_of_registered? h <;> rfl

theorem after_of_registered? (s : Session) {a : Act} {e : Expectation} (h : a.registered? = some e) :
    s.after a = (s.register e).1 := by
  rcases after_registration_cases s (isRegistration_of_registered? h) with ⟨hnone, -⟩ | ⟨e', hsome, hregister⟩
  · rw [h] at hnone
    cases hnone
  · obtain rfl : e' = e := Option.some.inj (hsome.symm.trans h)
    exact hregister

theorem after_of_registered?_eq_none (s : Session) {a : Act} (h : a.isRegistration = true)
    (hnone : a.registered? = none) : s.after a = s := by
  rcases after_registration_cases s h with ⟨-, hsame⟩ | ⟨e, hsome, -⟩
  · exact hsame
  · rw [hnone] at hsome
    cases hsome

/-- Setting up replaces an expectation by what the setting makes of it, or is a usage error. -/
theorem after_configure_cases (s : Session) (id : Nat) (setting : Setting) :
    s.after (.configure id setting) = s ∨
      ∃ e e', s.expectation? id = some e ∧ e.apply (s.known setting) = .ok e' ∧
        s.after (.configure id setting) = s.putExpectation id e' := by
  cases hfound : s.expectation? id with
  | none => exact .inl (by simp [after, configure, hfound])
  | some e =>
    cases happly : e.apply (s.known setting) with
    | error u => exact .inl (by simp [after, configure, hfound, happly])
    | ok e' => exact .inr ⟨e, e', rfl, happly, by simp [after, configure, hfound, happly]⟩

/-- Every act changes a session in one of these ways. -/
theorem change (s : Session) (a : Act) : Change s a (s.after a) := by
  have hquiet : ∀ {t : Session}, SameBooks s t → s.replied a = [] → Change s a t :=
    fun hbooks hsilent => .same hbooks (by simp [hsilent])
  have hregistration : ∀ b : Act, b.isRegistration = true → s.replied b = [] → Change s b (s.after b) := by
    intro b hb hsilent
    rcases after_registration_cases s hb with ⟨_, hsame⟩ | ⟨e, hact, hregister⟩
    · rw [hsame]
      exact .same (.refl s) (by simp [hsilent])
    · obtain ⟨hexp, hreg, hledger⟩ := register_books s e
      rw [hregister]
      exact .registered e hact hsilent hexp hreg hledger
  cases a with
  | newMock keepsStacks => exact hquiet (sameBooks_newMock keepsStacks) rfl
  | on m method pattern location => exact hregistration _ rfl rfl
  | onAny m method location => exact hregistration _ rfl rfl
  | answerWith m proxy location => exact hregistration _ rfl rfl
  | configure id setting =>
    rcases after_configure_cases s id setting with hsame | ⟨e, e', hfound, happly, hput⟩
    · rw [hsame]
      exact hquiet (.refl s) rfl
    · rw [hput]
      exact .configured e e' hfound happly rfl (fun _ => rfl) (fun _ => rfl)
  | unset m id =>
    obtain ⟨hexp, hreg, hledger⟩ := unset_books s m id
    exact .unset hexp hreg hledger
  | call m method args =>
    rcases call_cases s m method args with ⟨n, hcall⟩ | ⟨id, e, hpicks, hmet⟩
    · have hbooks : SameBooks s (s.call m method args).1 := by
        rw [hcall]
        have hstart : SameBooks s { s.helper with log := s.selectionLog m method args } := .of_eq rfl rfl
        exact hstart.trans (sameBooks_reject n)
      exact .same hbooks (by simp [replied, hcall, Reply.isRejected])
    · obtain ⟨hexp, hreg, hledger⟩ := hpicks.answered_books hmet
      obtain ⟨reply, hanswered, hcall⟩ := hpicks.call_of_met hmet
      exact .answered e reply hpicks hmet (by simp [replied, hcall]) hanswered hexp hreg hledger
  | callable m method args => exact hquiet (sameBooks_callable method args) rfl
  | setData m key v => exact hquiet (sameBooks_setData key v) rfl
  | audit m => exact hquiet sameBooks_audit rfl
  | assertCallCount m method want => exact hquiet (sameBooks_assertCallCount method want) rfl

end TraitMock.Session
