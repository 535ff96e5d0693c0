import TraitMock.Proofs.Mock.Evolution
import TraitMock.Proofs.Mock.Working

namespace TraitMock

/-- The mock that an act has to itself while it is done. Setting up an expectation further needs no mock. -/
def Act.mock? : Act → Option Nat
  | .newMock _ => none
  | .configure _ _ => none
  | .on m _ _ _ => some m
  | .onAny m _ _ => some m
  | .answerWith m _ _ => some m
  | .unset m _ => some m
  | .call m _ _ => some m
  | .callable m _ _ => some m
  | .setData m _ _ => some m
  | .audit m => some m
  | .assertCallCount m _ _ => some m

/-- What one of several threads of a test does: an act as a whole, or a part of a call. -/
inductive Move where
  | act (a : Act)
  | enter (m : Nat) (method : String) (args : Arguments)
  /-- The open call of the mock has waited long enough: a message was there or came meanwhile, or nobody can send one
      any more. Its hooks and its proxy start behind that. -/
  | leave (m : Nat)

/-- A session while calls overlap with what other threads do. -/
structure Overlap where
  session : Session := {}
  /-- The calls that were accepted and have not ended. -/
  calls : List OpenCall := []

/-- Whether a move asks for a delay of the expectation while one of its own calls waits for a message. -/
def Move.delays (x : Overlap) (id : Nat) : Move → Bool
  | .act (.configure j (.after _)) => j == id && x.calls.any fun c => c.expectation == id && c.taken.gate?.isSome
  | _ => false

namespace Session

variable {s : Session}

private theorem expectations_record (m : Nat) (method : String) (args : Arguments) :
    (s.record m method args).expectations = s.expectations := by
  unfold record
  split <;> rfl

/-- A call is refused, or it is open and has taken the wait off an expectation. -/
theorem enter_cases (s : Session) (m : Nat) (method : String) (args : Arguments) :
    (∃ reply, (s.enter m method args).2 = .inl reply ∧
      (s.enter m method args).1.expectations = s.expectations) ∨
    ∃ id e, s.expectation? id = some e ∧
      (s.enter m method args).2 = .inr ⟨m, id, args, (Expectation.enter.run e).1⟩ ∧
      (s.enter m method args).1.expectations = s.expectations.set id e.entered := by
  rcases hchoose : s.helper.choose m method args with ⟨n | id, log⟩
  · left
    simp only [enter, hchoose]
    exact ⟨_, rfl, (sameBooks_reject n).expectations⟩
  · simp only [enter, hchoose]
    have hrecord : ({ s.helper with log := log }.record m method args).expectations = s.expectations :=
      expectations_record m method args
    cases hfound : ({ s.helper with log := log }.record m method args).expectation? id with
    | none => exact .inl ⟨_, rfl, hrecord⟩
    | some e =>
      right
      refine ⟨id, e, ?_, rfl, ?_⟩
      · rwa [expectation?, hrecord] at hfound
      · exact congrArg (List.set · id e.entered) hrecord

private theorem mock_of_enter {m : Nat} {method : String} {args : Arguments} {t : Session} {c : OpenCall}
    (h : s.enter m method args = (t, .inr c)) : c.mock = m := by
  rcases s.enter_cases m method args with ⟨reply, hreply, -⟩ | ⟨id, e, -, hopen, -⟩
  · rw [h] at hreply
    cases hreply
  · rw [h] at hopen
    cases hopen
    rfl

theorem leave_fst (s : Session) (c : OpenCall) :
    s.expectation? c.expectation = none ∧ (s.leave c).1 = s ∨
      ∃ e, s.expectation? c.expectation = some e ∧
        (s.leave c).1 = s.putExpectation c.expectation (e.putBack c.taken.gate?) := by
  cases hfound : s.expectation? c.expectation with
  | none => exact .inl ⟨rfl, by simp only [leave, hfound]⟩
  | some e => exact .inr ⟨e, rfl, by simp only [leave, hfound, Expectation.on_leave_snd]⟩

end Session

namespace Overlap

/-- The open call of a mock. -/
def openCall? (x : Overlap) (m : Nat) : Option OpenCall := x.calls.find? (·.mock == m)

/-- What a thread does next. A mock whose call is open is locked: who needs it has to come again. -/
def step (x : Overlap) : Move → Overlap
  | .act a =>
    match a.mock?.bind x.openCall? with
    | some _ => x
    | none => { x with session := ((Session.perform a).on x.session).2 }
  | .enter m method args =>
    match x.openCall? m with
    | some _ => x
    | none =>
      match x.session.enter m method args with
      | (t, .inl _) => { x with session := t }
      | (t, .inr c) => { session := t, calls := c :: x.calls }
  | .leave m =>
    match x.openCall? m with
    | none => x
    | some c => { session := (x.session.leave c).1, calls := x.calls.filter (·.mock ≠ m) }

/-- The session after several moves, of whatever threads. -/
def after (x : Overlap) (moves : List Move) : Overlap := moves.foldl step x

/-- How a move changes the expectations and the open calls. -/
inductive Moved (x : Overlap) : Move → Overlap → Prop where
  | same {v : Move} {y : Overlap} (hexp : y.session.expectations = x.session.expectations)
      (hcalls : y.calls = x.calls) : Moved x v y
  | acted (a : Act) : Moved x (.act a) { x with session := x.session.after a }
  | entered {m : Nat} {method : String} {args : Arguments} {y : Overlap} (id : Nat) (e : Expectation)
      (hfree : x.openCall? m = none) (hfound : x.session.expectation? id = some e)
      (hexp : y.session.expectations = x.session.expectations.set id e.entered)
      (hcalls : y.calls = ⟨m, id, args, (Expectation.enter.run e).1⟩ :: x.calls) :
      Moved x (.enter m method args) y
  | left {m : Nat} (c : OpenCall) (e : Expectation) (hopen : x.openCall? m = some c)
      (hfound : x.session.expectation? c.expectation = some e) :
      Moved x (.leave m)
        { session := x.session.putExpectation c.expectation (e.putBack c.taken.gate?),
          calls := x.calls.filter (·.mock ≠ m) }
  | gone {m : Nat} (c : OpenCall) (hopen : x.openCall? m = some c) :
      Moved x (.leave m) { x with calls := x.calls.filter (·.mock ≠ m) }

theorem moved (x : Overlap) (v : Move) : Moved x v (x.step v) := by
  cases v with
  | act a =>
    rw [step]
    split
    · exact .same rfl rfl
    · rw [Session.on_perform_snd]
      exact .acted a
  | enter m method args =>
    rw [step]
    split
    · exact .same rfl rfl
    · rename_i hfree
      rcases x.session.enter_cases m method args with ⟨reply, hreply, hexp⟩ | ⟨id, e, hfound, hopen, hexp⟩
      · rw [show x.session.enter m method args = (_, .inl reply) from Prod.ext rfl hreply]
        exact .same hexp rfl
      · rw [show x.session.enter m method args = (_, .inr _) from Prod.ext rfl hopen]
        exact .entered id e hfree hfound hexp rfl
  | leave m =>
    rw [step]
    split
    · exact .same rfl rfl
    · rename_i c hopen
      rcases x.session.leave_fst c with ⟨hnone, hsame⟩ | ⟨e, hfound, hput⟩
      · rw [hsame]
        exact .gone c hopen
      · rw [hput]
        exact .left c e hopen hfound

/-- A call that nothing overlaps is a call as a whole. -/
theorem step_leave_step_enter {x : Overlap} {m : Nat} (hfree : x.openCall? m = none) (method : String)
    (args : Arguments) :
    (x.step (.enter m method args)).step (.leave m) = { x with session := (x.session.call m method args).1 } := by
  have hothers : ∀ c ∈ x.calls, c.mock ≠ m := by simpa [openCall?] using hfree
  rw [← Session.callInSteps_eq, Session.callInSteps, step]
  simp only [hfree]
  rcases henter : x.session.enter m method args with ⟨t, reply | c⟩
  · have hstill : ({ x with session := t } : Overlap).openCall? m = none := hfree
    simp only [step, hstill]
  · obtain rfl : c.mock = m := Session.mock_of_enter henter
    simpa [step, openCall?] using hothers

/-- Every open call is that of its mock, and the expectation that answers it stays in existence. -/
structure Held (x : Overlap) : Prop where
  only : ∀ c ∈ x.calls, x.openCall? c.mock = some c
  found : ∀ c ∈ x.calls, ∃ e, x.session.expectation? c.expectation = some e

private theorem held_empty : Held {} := ⟨by simp, by simp⟩

variable {x y : Overlap} {v : Move}

/-- The open calls of other mocks stay open when that of a mock ends. -/
theorem openCall?_filter {m n : Nat} (calls : List OpenCall) (hne : n ≠ m) :
    (calls.filter (·.mock ≠ m)).find? (·.mock == n) = calls.find? (·.mock == n) := by
  rw [List.find?_filter]
  congr 1
  funext c
  by_cases hc : c.mock = n
  · simp [hc, hne]
  · simp [hc]

theorem Held.ended (h : Held x) (m : Nat) {t : Session}
    (hkeeps : ∀ id e, x.session.expectation? id = some e → ∃ e', t.expectation? id = some e') :
    Held { session := t, calls := x.calls.filter (·.mock ≠ m) } := by
  refine ⟨fun c hc => ?_, fun c hc => ?_⟩
  · obtain ⟨hmem, hne⟩ := List.mem_filter.mp hc
    exact (openCall?_filter x.calls (by simpa using hne)).trans (h.only c hmem)
  · obtain ⟨e, he⟩ := h.found c (List.mem_filter.mp hc).1
    exact hkeeps _ e he

theorem Moved.held (h : Moved x v y) (hx : Held x) : Held y := by
  cases h with
  | same hexp hcalls =>
    refine ⟨fun c hc => ?_, fun c hc => ?_⟩
    · rw [openCall?, hcalls]
      exact hx.only c (hcalls ▸ hc)
    · rw [Session.expectation?, hexp]
      exact hx.found c (hcalls ▸ hc)
  | acted a =>
    refine ⟨hx.only, fun c hc => ?_⟩
    obtain ⟨e, he⟩ := hx.found c hc
    obtain ⟨e', he', -⟩ := (Session.change x.session a).evolves he
    exact ⟨e', he'⟩
  | @entered m method args _ id e hfree hfound hexp hcalls =>
    have hothers : ∀ c ∈ x.calls, c.mock ≠ m := by simpa [openCall?] using hfree
    refine ⟨fun c hc => ?_, fun c hc => ?_⟩
    · rw [openCall?, hcalls]
      rw [hcalls] at hc
      rcases List.mem_cons.mp hc with rfl | hold
      · simp
      · rw [List.find?_cons_of_neg (by simpa using (hothers c hold).symm)]
        exact hx.only c hold
    · rw [Session.expectation?_of_set hexp hfound]
      by_cases hid : c.expectation = id
      · exact ⟨_, if_pos hid⟩
      · rw [if_neg hid]
        rw [hcalls] at hc
        rcases List.mem_cons.mp hc with rfl | hold
        · exact absurd rfl hid
        · exact hx.found c hold
  | @left m c e hopen hfound =>
    refine hx.ended m fun id old hold => ?_
    rw [Session.expectation?_of_set (t := x.session.putExpectation c.expectation _) rfl hfound]
    by_cases hid : id = c.expectation
    · exact ⟨_, if_pos hid⟩
    · exact ⟨old, by rw [if_neg hid, hold]⟩
  | gone c hopen => exact hx.ended _ fun id e he => ⟨e, he⟩

/-- What every move keeps holds after all of them. -/
theorem after_keeps {P : Overlap → Prop} (moves : List Move) (hstart : P x) (hstep : ∀ x v, P x → P (x.step v)) :
    P (x.after moves) := by
  induction moves generalizing x with
  | nil => exact hstart
  | cons v moves ih => exact ih (hstep x v hstart)

theorem held_after (moves : List Move) : Held (after {} moves) :=
  after_keeps moves held_empty fun x v hx => (moved x v).held hx

end Overlap

end TraitMock
