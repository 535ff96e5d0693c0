import TraitMock.Proofs.Mock.Evolution

namespace TraitMock.Expectation

variable {e e' : Expectation} {setting : Setting}

theorem satisfied_congr (hcount : e'.count = e.count) (htimes : e'.times = e.times)
    (hoptional : e'.optional = e.optional) : e'.satisfied = e.satisfied := by
  simp only [satisfied, hcount, htimes, hoptional]

/-- Setting up an expectation further keeps it satisfied unless it changes the number of calls expected after
    the first call. -/
theorem Applied.satisfied_stays (h : Applied e setting e') (htimes : e.count = 0 ∨ e'.times = e.times)
    (hsatisfied : e.satisfied = true) : e'.satisfied = true := by
  cases h with
  | times n hmandatory =>
    rcases htimes with hcount | hsame
    · have hoptional := optional_of_satisfied_of_count_eq_zero hsatisfied hcount
      rw [hmandatory] at hoptional
      cases hoptional
    · have hsat : ({ e with times := n } : Expectation).satisfied = e.satisfied := satisfied_congr rfl hsame rfl
      rw [hsat]
      exact hsatisfied
  | optional hzero => simp [satisfied, hzero]
  | requires expectations => exact hsatisfied
  | other _ _ hcount hsame hoptional _ => rw [satisfied_congr hcount hsame hoptional, hsatisfied]

/-- An expectation that is satisfied and may be called once more is satisfied after that call as well. -/
theorem counted_satisfied (hcallable : e.callable = true) (hsatisfied : e.satisfied = true) :
    e.counted.satisfied = true := by
  simp only [callable, Bool.or_eq_true, beq_iff_eq, decide_eq_true_eq] at hcallable
  cases hoptional : e.optional with
  | true =>
    simp only [satisfied, counted, hoptional, if_true, Bool.or_eq_true, beq_iff_eq, decide_eq_true_eq]
    omega
  | false =>
    simp only [satisfied, hoptional, Bool.false_eq_true, if_false] at hsatisfied
    simp only [satisfied, counted, hoptional, Bool.false_eq_true, if_false]
    by_cases hlimit : 0 < e.times
    · -- the last call allowed was made, so there is no further one
      simp only [hlimit, if_true, beq_iff_eq] at hsatisfied
      omega
    · simp [hlimit]

/-- No more calls were counted than allowed; zero allows any number. -/
def WithinLimit (e : Expectation) : Prop := 0 < e.times → e.count ≤ e.times

private theorem counted_withinLimit (hcallable : e.callable = true) : e.counted.WithinLimit := by
  intro hlimit
  simp only [callable, Bool.or_eq_true, beq_iff_eq, decide_eq_true_eq] at hcallable
  simp only [counted] at hlimit ⊢
  omega

theorem Applied.withinLimit (h : Applied e setting e') (htimes : e.count = 0 ∨ e'.times = e.times)
    (hwithin : e.WithinLimit) : e'.WithinLimit := by
  intro hlimit
  rw [h.count_eq]
  rcases htimes with hcount | hsame
  · omega
  · rw [hsame] at hlimit ⊢
    exact hwithin hlimit

end TraitMock.Expectation

namespace TraitMock.Session

variable {s t : Session} {a : Act}

/-- An act does not change the number of calls expected of an expectation that was called before. -/
def KeepsTimes (s : Session) : Act → Prop
  | .configure id setting =>
    match s.expectation? id with
    | none => True
    | some e =>
      match e.apply (s.known setting) with
      | .error _ => True
      | .ok e' => e.count = 0 ∨ e'.times = e.times
  | _ => True

theorem KeepsTimes.times_eq {id : Nat} {setting : Setting} {e e' : Expectation}
    (h : s.KeepsTimes (.configure id setting)) (hfound : s.expectation? id = some e)
    (happly : e.apply (s.known setting) = .ok e') : e.count = 0 ∨ e'.times = e.times := by
  simpa [KeepsTimes, hfound, happly] using h

theorem Evolves.withinLimit {id : Nat} {e e' : Expectation} (h : Evolves s id e a e') (hkeeps : s.KeepsTimes a)
    (hfound : s.expectation? id = some e) (hwithin : e.WithinLimit) : e'.WithinLimit := by
  cases h with
  | kept => exact hwithin
  | configured happly =>
    exact (Expectation.applied_of_apply happly).withinLimit (hkeeps.times_eq hfound happly) hwithin
  | counted hpicks _ => exact Expectation.counted_withinLimit hpicks.callable

theorem Evolves.satisfied_stays {id : Nat} {e e' : Expectation} (h : Evolves s id e a e')
    (hkeeps : s.KeepsTimes a) (hfound : s.expectation? id = some e) (hsatisfied : e.satisfied = true) :
    e'.satisfied = true := by
  cases h with
  | kept => exact hsatisfied
  | configured happly =>
    exact (Expectation.applied_of_apply happly).satisfied_stays (hkeeps.times_eq hfound happly) hsatisfied
  | counted hpicks _ => exact Expectation.counted_satisfied hpicks.callable hsatisfied

/-- In every session of a run all expectations are within their limits. -/
theorem withinLimit_run {acts : List Act} (hkeeps : Along KeepsTimes {} acts) :
    ∀ id e, (run {} acts).expectation? id = some e → e.WithinLimit := by
  refine hkeeps.keeps (P := fun s => ∀ id e, s.expectation? id = some e → e.WithinLimit) ?_ ?_
  · intro id e he
    simp [expectation?] at he
  · intro s a hact hall id e' he'
    rcases (change s a).origin he' with ⟨e, he, hevolves⟩ | hact
    · exact hevolves.withinLimit hact he (hall id e he)
    · intro _
      rw [(Act.isNew_of_registered? hact).count]
      omega

/-- A satisfied expectation is satisfied after every further run. -/
theorem satisfied_run {acts : List Act} (hkeeps : Along KeepsTimes s acts) {id : Nat} {e : Expectation}
    (hfound : s.expectation? id = some e) (hsatisfied : e.satisfied = true) :
    ∃ e', (s.run acts).expectation? id = some e' ∧ e'.satisfied = true := by
  refine hkeeps.keeps (P := fun t => ∃ e', t.expectation? id = some e' ∧ e'.satisfied = true)
    ⟨e, hfound, hsatisfied⟩ ?_
  rintro t a hact ⟨old, hold, hsat⟩
  obtain ⟨new, hnew, hevolves⟩ := (change t a).evolves hold
  exact ⟨new, hnew, hevolves.satisfied_stays hact hold hsat⟩

/-- Prerequisites that are satisfied are so after every further run, unless others are added to them. -/
theorem unmet_run_eq_nil {acts : List Act} (hsound : s.Sound) (hkeeps : Along KeepsTimes s acts) {id : Nat}
    {e e' : Expectation} (hfound : s.expectation? id = some e) (hmet : s.unmet e = [])
    (hsub : ∀ r ∈ e'.requires, r ∈ e.requires) : (s.run acts).unmet e' = [] := by
  rw [unmet_eq_nil_iff] at hmet ⊢
  intro r hr q' hq'
  have hr := hsub r hr
  have hlt : r < s.expectations.length := hsound.known id e hfound r hr
  obtain ⟨q, hq⟩ : ∃ q, s.expectation? r = some q := ⟨_, List.getElem?_eq_getElem hlt⟩
  obtain ⟨now, hnow, hsatisfied⟩ := satisfied_run hkeeps hq (hmet r hr q hq)
  obtain rfl : now = q' := Option.some.inj (hnow.symm.trans hq')
  exact hsatisfied

/-- As long as no step changes the number of calls expected after the first call, every expectation of every
    session reached is within its limit. One that is satisfied there is satisfied in every later session, so
    that prerequisites that were met stay met unless others are added. -/
theorem limits_hold_and_satisfaction_stays (acts later : List Act) (hkeeps : Along KeepsTimes {} (acts ++ later)) :
    (∀ id e, (run {} acts).expectation? id = some e → 0 < e.times → e.count ≤ e.times) ∧
    (∀ id e, (run {} acts).expectation? id = some e → e.satisfied = true →
      ∃ e', (run {} (acts ++ later)).expectation? id = some e' ∧ e'.satisfied = true) ∧
    ∀ id e e', (run {} acts).expectation? id = some e → (run {} acts).unmet e = [] →
      (run {} (acts ++ later)).expectation? id = some e' → (∀ r ∈ e'.requires, r ∈ e.requires) →
      (run {} (acts ++ later)).unmet e' = [] := by
  obtain ⟨hacts, hlater⟩ := hkeeps.append
  rw [run_append]
  refine ⟨?_, ?_, ?_⟩
  · intro id e he hlimit
    exact withinLimit_run hacts id e he hlimit
  · intro id e he hsatisfied
    exact satisfied_run hlater he hsatisfied
  · intro id e e' he hmet _ hsub
    exact unmet_run_eq_nil (sound_run acts) hlater he hmet hsub

/-- Two calls of one method are expected, and calls of another one after these. -/
def twoGetsThenPut : List Act :=
  [.newMock false, .onAny 0 "Get" "store.rs:1", .configure 0 (.times 2), .onAny 0 "Put" "store.rs:2",
    .configure 1 (.requires [0]), .call 0 "Put" [], .call 0 "Get" [], .call 0 "Get" []]

theorem limits_hold_for_two_gets :
    Along KeepsTimes {} (twoGetsThenPut ++ [.call 0 "Get" [], .call 0 "Put" []]) ∧
    (∀ id e, (run {} twoGetsThenPut).expectation? id = some e → 0 < e.times → e.count ≤ e.times) ∧
    (∃ e, (run {} (twoGetsThenPut ++ [.call 0 "Get" [], .call 0 "Put" []])).expectation? 0 = some e ∧
      e.satisfied = true) ∧
    ∃ e, (run {} (twoGetsThenPut ++ [.call 0 "Get" [], .call 0 "Put" []])).expectation? 1 = some e ∧
      (run {} (twoGetsThenPut ++ [.call 0 "Get" [], .call 0 "Put" []])).unmet e = [] := by
  have hkeeps : Along KeepsTimes {} (twoGetsThenPut ++ [.call 0 "Get" [], .call 0 "Put" []]) :=
    ⟨trivial, trivial, .inl rfl, trivial, .inl rfl, trivial, trivial, trivial, trivial, trivial, trivial⟩
  obtain ⟨hlimit, hsatisfied, hmet⟩ := limits_hold_and_satisfaction_stays _ _ hkeeps
  refine ⟨hkeeps, hlimit, hsatisfied 0 _ rfl rfl, _, rfl, ?_⟩
  exact hmet 1 _ _ rfl rfl rfl fun r hr => hr

end TraitMock.Session
