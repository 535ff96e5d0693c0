import TraitMock.Proofs.Mock.Overlap

namespace TraitMock.Expectation

/-- What goes together of what an expectation is set up with. -/
structure Fitting (e : Expectation) : Prop where
  /-- An optional expectation has no number of calls to wait for. -/
  optional_times : e.optional = true → e.times = 0
  /-- A proxy gives all the answers. -/
  proxy_answers : e.proxy?.isSome = true → e.returns = [] ∧ e.panicMessage? = none
  /-- An expectation that takes any arguments has nothing to compare them with, nor to give them to. -/
  any_pattern : e.anyArguments = true → e.pattern? = none ∧ e.proxy? = none
  /-- Only such an expectation and one with a proxy have no pattern. -/
  no_pattern : e.pattern? = none → e.anyArguments = true ∨ e.proxy?.isSome = true

/-- The ways of setting up an expectation that go together. -/
structure Coherent (e : Expectation) : Prop extends Fitting e where
  /-- A call waits in one way only. -/
  one_wait : e.gate? = none ∨ e.delay? = none

variable {e e' : Expectation} {setting : Setting}

/-- Each step of setting up checks what it could clash with. -/
theorem Fitting.apply (h : e.Fitting) (happly : e.apply setting = .ok e') : e'.Fitting := by
  obtain ⟨hoptional, hproxy, hany, hpattern⟩ := h
  cases setUp_of_apply happly with
  | returns values hnone => exact ⟨hoptional, by simp [hnone], hany, hpattern⟩
  | with_ pattern hallowed hsome =>
    -- there is a proxy, so the expectation does not take any arguments
    exact ⟨hoptional, hproxy, fun hall => absurd (hany hall).2 hsome, by simp⟩
  | times n hmandatory => exact ⟨by simp [hmandatory], hproxy, hany, hpattern⟩
  | optional htimes => exact ⟨fun _ => htimes, hproxy, hany, hpattern⟩
  | panics message hnone => exact ⟨hoptional, by simp [hnone], hany, hpattern⟩
  | until_ messages => exact ⟨hoptional, hproxy, hany, hpattern⟩
  | after milliseconds => exact ⟨hoptional, hproxy, hany, hpattern⟩
  | requires expectations => exact ⟨hoptional, hproxy, hany, hpattern⟩
  | alter hook => exact ⟨hoptional, hproxy, hany, hpattern⟩

theorem Fitting.counted (h : e.Fitting) : e.counted.Fitting :=
  ⟨h.optional_times, h.proxy_answers, h.any_pattern, h.no_pattern⟩

theorem Fitting.entered (h : e.Fitting) : e.entered.Fitting :=
  ⟨h.optional_times, h.proxy_answers, h.any_pattern, h.no_pattern⟩

theorem Fitting.putBack (h : e.Fitting) (gate? : Option Nat) : (e.putBack gate?).Fitting := by
  cases gate? with
  | none => exact h
  | some messages =>
    rw [Expectation.putBack]
    split
    · exact ⟨h.optional_times, h.proxy_answers, h.any_pattern, h.no_pattern⟩
    · exact h

/-- The two ways to wait replace each other. -/
theorem Coherent.apply (h : e.Coherent) (happly : e.apply setting = .ok e') : e'.Coherent := by
  refine ⟨h.toFitting.apply happly, ?_⟩
  cases setUp_of_apply happly with
  | until_ messages => exact .inr rfl
  | after milliseconds => exact .inl rfl
  | _ => exact h.one_wait

theorem Coherent.counted (h : e.Coherent) : e.counted.Coherent :=
  ⟨h.toFitting.counted, h.one_wait.imp_left fun hnone => by simp [Expectation.counted, hnone]⟩

theorem Coherent.entered (h : e.Coherent) : e.entered.Coherent := ⟨h.toFitting.entered, .inl rfl⟩

theorem delay?_putBack (e : Expectation) (gate? : Option Nat) : (e.putBack gate?).delay? = e.delay? := by
  cases gate? with
  | none => rfl
  | some messages =>
    rw [Expectation.putBack]
    split <;> rfl

/-- A wait is put back where there is no delay. -/
theorem Coherent.putBack (h : e.Coherent) {gate? : Option Nat} (hdelay : gate? ≠ none → e.delay? = none) :
    (e.putBack gate?).Coherent := by
  refine ⟨h.toFitting.putBack gate?, ?_⟩
  cases gate? with
  | none => exact h.one_wait
  | some messages => exact .inr ((delay?_putBack e _).trans (hdelay (by simp)))

end TraitMock.Expectation

namespace TraitMock.Session

theorem coherent_of_registered? {a : Act} {e : Expectation} (h : a.registered? = some e) :
    e.Coherent ∧ e.delay? = none := by
  cases a.registers_of_registered? h <;> exact ⟨⟨⟨by simp, by simp, by simp, by simp⟩, .inl rfl⟩, rfl⟩

/-- Every expectation is set up with what goes together. -/
def Fitting (s : Session) : Prop := ∀ id e, s.expectation? id = some e → e.Fitting

/-- Every expectation is coherent. -/
def Coherent (s : Session) : Prop := ∀ id e, s.expectation? id = some e → e.Coherent

variable {s : Session}

theorem coherent_empty : Coherent {} := by
  intro id e he
  simp [expectation?] at he

theorem Fitting.after (h : s.Fitting) (a : Act) : (s.after a).Fitting :=
  (change s a).forall_expectation h (fun _ hnew => (coherent_of_registered? hnew).1.toFitting)
    (fun happly hold => hold.apply happly) fun hold => hold.counted

theorem Change.coherent_at {t : Session} {a : Act} {id : Nat} {e' : Expectation} (h : Change s a t)
    (hfound : t.expectation? id = some e') (hold : ∀ e, s.expectation? id = some e → e.Coherent) : e'.Coherent := by
  rcases h.origin hfound with ⟨e, he, hevolves⟩ | hregistered
  · cases hevolves with
    | kept => exact hold e' he
    | configured happly => exact (hold e he).apply happly
    | counted _ _ => exact (hold e he).counted
  · exact (coherent_of_registered? hregistered).1

theorem Coherent.after (h : s.Coherent) (a : Act) : (s.after a).Coherent :=
  fun id _ hfound => (change s a).coherent_at hfound (h id)

/-- A delay is there before an act, or is asked for by it. -/
theorem Change.delay_eq_none {t : Session} {a : Act} {id : Nat} {e' : Expectation} (h : Change s a t)
    (hfound : t.expectation? id = some e') (hnone : ∀ e, s.expectation? id = some e → e.delay? = none)
    (hunasked : ∀ milliseconds, a ≠ .configure id (.after milliseconds)) : e'.delay? = none := by
  rcases h.origin hfound with ⟨e, he, hevolves⟩ | hregistered
  · cases hevolves with
    | kept => exact hnone e' he
    | @configured setting _ happly =>
      have hold := hnone e he
      cases setting with
      | after milliseconds => exact absurd rfl (hunasked milliseconds)
      | until_ messages =>
        cases Expectation.setUp_of_apply happly
        rfl
      | _ =>
        cases Expectation.setUp_of_apply happly
        exact hold
    | counted _ _ => exact hnone e he
  · exact (coherent_of_registered? hregistered).2

/-- The session after several acts that are done in steps. A usage error does not end the test. -/
def performed (s : Session) (acts : List Act) : Session := acts.foldl (fun s a => ((perform a).on s).2) s

theorem performed_eq_run (s : Session) (acts : List Act) : s.performed acts = s.run acts := by
  simp only [performed, run, on_perform_snd]

end TraitMock.Session

namespace TraitMock.Overlap

open Session (expectation?_of_set change)

variable {x y : Overlap} {v : Move}

/-- The expectation is coherent, and has no delay where a wait is to be put back. -/
structure CoherentAt (x : Overlap) (id : Nat) : Prop where
  now : ∀ e, x.session.expectation? id = some e → e.Coherent
  undelayed : ∀ c ∈ x.calls, c.expectation = id → c.taken.gate? ≠ none →
    ∀ e, x.session.expectation? id = some e → e.delay? = none

namespace CoherentAt

variable {id : Nat}

private theorem acted (hx : x.CoherentAt id) (a : Act) (hunhurried : (Move.act a).delays x id = false) :
    CoherentAt { x with session := x.session.after a } id := by
  refine ⟨fun e' he' => (change x.session a).coherent_at he' hx.now, fun c hc hid hgate e' he' => ?_⟩
  refine (change x.session a).delay_eq_none he' (hx.undelayed c hc hid hgate) fun milliseconds ha => ?_
  -- the call is one of those that the delay may not be asked for during
  subst ha
  have hwaits : (x.calls.any fun c => c.expectation == id && c.taken.gate?.isSome) = true :=
    List.any_eq_true.mpr ⟨c, hc, by simp [hid, Option.isSome_iff_ne_none.mpr hgate]⟩
  simp [Move.delays, hwaits] at hunhurried

private theorem entered (hx : x.CoherentAt id) {c : OpenCall} {e : Expectation}
    (hfound : x.session.expectation? c.expectation = some e)
    (hexp : y.session.expectations = x.session.expectations.set c.expectation e.entered)
    (hcalls : y.calls = c :: x.calls) (htaken : c.taken.gate? = e.gate?) : y.CoherentAt id := by
  refine ⟨fun e' he' => ?_, fun d hd hid hgate e' he' => ?_⟩
  · rw [expectation?_of_set hexp hfound] at he'
    split at he'
    · rename_i hc
      cases he'
      exact (hx.now e (hc ▸ hfound)).entered
    · exact hx.now e' he'
  · rw [expectation?_of_set hexp hfound] at he'
    rw [hcalls] at hd
    rcases List.mem_cons.mp hd with rfl | hold
    · -- the wait that is taken is the only one that the expectation has
      rw [if_pos hid.symm] at he'
      cases he'
      exact (hx.now e (hid ▸ hfound)).one_wait.resolve_left (htaken ▸ hgate)
    · split at he'
      · rename_i hc
        cases he'
        exact hx.undelayed d hold hid hgate e (hc ▸ hfound)
      · exact hx.undelayed d hold hid hgate e' he'

private theorem left (hx : x.CoherentAt id) {m : Nat} {c : OpenCall} {e : Expectation} (hopen : c ∈ x.calls)
    (hfound : x.session.expectation? c.expectation = some e) :
    CoherentAt { session := x.session.putExpectation c.expectation (e.putBack c.taken.gate?),
                 calls := x.calls.filter (·.mock ≠ m) } id := by
  have hset : (x.session.putExpectation c.expectation (e.putBack c.taken.gate?)).expectation? id =
      if id = c.expectation then some (e.putBack c.taken.gate?) else x.session.expectation? id :=
    expectation?_of_set rfl hfound
  refine ⟨fun e' he' => ?_, fun d hd hid hgate e' he' => ?_⟩
  · rw [hset] at he'
    split at he'
    · rename_i hc
      cases he'
      rw [← hc] at hfound
      exact (hx.now e hfound).putBack fun hgate => hx.undelayed c hopen hc.symm hgate e hfound
    · exact hx.now e' he'
  · have hold := (List.mem_filter.mp hd).1
    rw [hset] at he'
    split at he'
    · rename_i hc
      cases he'
      rw [Expectation.delay?_putBack]
      exact hx.undelayed d hold hid hgate e (hc ▸ hfound)
    · exact hx.undelayed d hold hid hgate e' he'

end CoherentAt

/-- Where a delay is asked for of an expectation while its call waits, the end of the call leaves two ways to wait: that
    there is a delay is not looked at when the wait is put back. -/
theorem both_waits_of_delays {moves : List Move} {c : OpenCall} (hc : c ∈ (after {} moves).calls) {messages : Nat}
    (hgate : c.taken.gate? = some messages) (milliseconds : Nat) :
    ∃ e, (((after {} moves).step (.act (.configure c.expectation (.after milliseconds)))).step
      (.leave c.mock)).session.expectation? c.expectation = some e ∧
      e.gate? = some (messages - 1) ∧ e.delay? = some milliseconds := by
  obtain ⟨honly, hfound⟩ := held_after moves
  obtain ⟨e, he⟩ := hfound c hc
  generalize after {} moves = x at hc honly he
  let delayed : Expectation := { e with gate? := none, delay? := some milliseconds }
  let y : Overlap := { x with session := x.session.putExpectation c.expectation delayed }
  have hasked : x.step (.act (.configure c.expectation (.after milliseconds))) = y := by
    rw [step, show Option.bind _ x.openCall? = none from rfl, Session.on_perform_snd]
    simp [Session.after, Session.configure, he, Session.known, Expectation.apply, y, delayed]
  have hdelayed : y.session.expectation? c.expectation = some delayed := Session.expectation?_putExpectation he delayed
  have hopen : y.openCall? c.mock = some c := honly c hc
  rw [hasked, step, hopen]
  rcases y.session.leave_fst c with ⟨hnone, -⟩ | ⟨now, hnow, hput⟩
  · rw [hdelayed] at hnone
    cases hnone
  · obtain rfl : delayed = now := Option.some.inj (hdelayed.symm.trans hnow)
    dsimp only
    rw [hput, Session.expectation?_putExpectation hdelayed, hgate]
    exact ⟨_, rfl, rfl, rfl⟩

end TraitMock.Overlap

namespace TraitMock.Session

end TraitMock.Session
