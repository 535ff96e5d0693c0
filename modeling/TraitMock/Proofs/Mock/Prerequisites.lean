import TraitMock.Proofs.Mock.Evolution

namespace TraitMock.Session

variable {s t : Session} {a : Act}

/-- A run declared the expectation `r` to be a prerequisite of the expectation `id`. -/
def Declared (acts : List Act) (id r : Nat) : Prop :=
  ∃ before expectations rest, acts = before ++ .configure id (.requires expectations) :: rest ∧
    r ∈ expectations ∧ id < (run {} before).expectations.length ∧ r < (run {} before).expectations.length

/-- The session after declaring prerequisites that exist has them. -/
theorem requires_after_configure {id r : Nat} {expectations : List Nat} (hr : r ∈ expectations)
    (hid : id < s.expectations.length) (hlt : r < s.expectations.length) :
    ∃ e, (s.after (.configure id (.requires expectations))).expectation? id = some e ∧ r ∈ e.requires := by
  obtain ⟨e, he⟩ : ∃ e, s.expectation? id = some e := ⟨_, List.getElem?_eq_getElem hid⟩
  have hafter : s.after (.configure id (.requires expectations)) =
      s.putExpectation id { e with
        requires := e.requires ++ expectations.filter (· < s.expectations.length) } := by
    simp [after, configure, he, known, Expectation.apply]
  rw [hafter, expectation?_of_set rfl he, if_pos rfl]
  refine ⟨_, rfl, List.mem_append_right _ ?_⟩
  exact List.mem_filter.mpr ⟨hr, by simpa using hlt⟩

/-- A prerequisite declared in a run is among those of its expectation when the run ends. -/
theorem mem_requires_of_declared {acts : List Act} {id r : Nat} (h : Declared acts id r) :
    ∃ e, (run {} acts).expectation? id = some e ∧ r ∈ e.requires := by
  obtain ⟨before, expectations, rest, rfl, hr, hid, hlt⟩ := h
  rw [run_append, run_cons]
  refine run_keeps (P := fun t => ∃ e, t.expectation? id = some e ∧ r ∈ e.requires) rest
    (requires_after_configure hr hid hlt) ?_
  rintro t a ⟨e, he, hmem⟩
  obtain ⟨e', he', hevolves⟩ := (change t a).evolves he
  exact ⟨e', he', hevolves.requires_stay hmem⟩

/-- The prerequisites declared for an expectation without unmet ones are satisfied. -/
theorem declared_satisfied {acts : List Act} {id r : Nat} {e : Expectation} (hdeclared : Declared acts id r)
    (hfound : (run {} acts).expectation? id = some e) (hmet : (run {} acts).unmet e = []) :
    ∃ q, (run {} acts).expectation? r = some q ∧ q.satisfied = true := by
  obtain ⟨now, hnow, hr⟩ := mem_requires_of_declared hdeclared
  obtain rfl : now = e := Option.some.inj (hnow.symm.trans hfound)
  have hlt := (sound_run acts).known id now hfound r hr
  obtain ⟨q, hq⟩ : ∃ q, (run {} acts).expectation? r = some q := ⟨_, List.getElem?_eq_getElem hlt⟩
  exact ⟨q, hq, unmet_eq_nil_iff.mp hmet r hr q hq⟩

/-- A call that is not refused counts an expectation that it picks, whose prerequisites are satisfied. -/
theorem picks_of_answered {m : Nat} {method : String} {args : Arguments}
    (h : (s.call m method args).2.isRejected = false) :
    ∃ id e, s.Picks m method args id e ∧ s.unmet e = [] ∧
      (s.call m method args).1.expectation? id = some e.counted := by
  rcases call_cases s m method args with ⟨n, hcall⟩ | ⟨id, e, hpicks, hmet⟩
  · rw [hcall] at h
    cases h
  · obtain ⟨hexp, _, _⟩ := hpicks.answered_books hmet
    exact ⟨id, e, hpicks, hmet, by rw [expectation?_of_set hexp hpicks.found, if_pos rfl]⟩

/-- Only a call that picks an expectation and is not refused changes how often it was called. -/
theorem count_eq_or_picked {id : Nat} {e e' : Expectation} (h : Evolves s id e a e') :
    e'.count = e.count ∨
      ∃ m method args, a = .call m method args ∧ s.Picks m method args id e ∧ s.unmet e = [] ∧
        (s.call m method args).2.isRejected = false := by
  cases h with
  | kept => exact .inl rfl
  | configured happly => exact .inl (Expectation.applied_of_apply happly).count_eq
  | @counted m method args hpicks hmet =>
    obtain ⟨reply, hanswered, hcall⟩ := hpicks.call_of_met hmet
    exact .inr ⟨m, method, args, rfl, hpicks, hmet, by rw [hcall, hanswered]⟩

/-- None of some expectations was called, and each of them requires one of them. -/
def Entangled {ι : Type} (s : Session) (ids : ι → Nat) : Prop :=
  ∀ i, ∃ e, s.expectation? (ids i) = some e ∧ e.count = 0 ∧ ∃ j, ids j ∈ e.requires

/-- None of some expectations is optional. -/
def Mandatory {ι : Type} (s : Session) (ids : ι → Nat) : Prop :=
  ∀ i e, s.expectation? (ids i) = some e → e.optional = false

/-- Entangled expectations that are all mandatory keep each other from being satisfied. -/
theorem Entangled.unmet_ne_nil {ι : Type} {ids : ι → Nat} (h : s.Entangled ids) (hmandatory : s.Mandatory ids)
    {i : ι} {e : Expectation} (hfound : s.expectation? (ids i) = some e) : s.unmet e ≠ [] := by
  intro hmet
  obtain ⟨now, hnow, _, j, hrequired⟩ := h i
  obtain rfl : now = e := Option.some.inj (hnow.symm.trans hfound)
  obtain ⟨q, hq, hcount, _⟩ := h j
  have hsatisfied : q.satisfied = true := unmet_eq_nil_iff.mp hmet (ids j) hrequired q hq
  have hoptional := Expectation.optional_of_satisfied_of_count_eq_zero hsatisfied hcount
  rw [hmandatory j q hq] at hoptional
  cases hoptional

/-- No act disentangles expectations that are all mandatory: none of them can be the first to be called. -/
theorem Change.entangled {ι : Type} {ids : ι → Nat} (h : Change s a t) (hentangled : s.Entangled ids)
    (hmandatory : s.Mandatory ids) : t.Entangled ids := by
  intro i
  obtain ⟨e, he, hcount, j, hrequired⟩ := hentangled i
  obtain ⟨e', he', hevolves⟩ := h.evolves he
  refine ⟨e', he', ?_, j, hevolves.requires_stay hrequired⟩
  cases hevolves with
  | kept => exact hcount
  | configured happly => rw [(Expectation.applied_of_apply happly).count_eq, hcount]
  | counted _ hmet =>
    -- this would be the first call among them, so the prerequisite among them is not satisfied
    exact absurd hmet (hentangled.unmet_ne_nil hmandatory he)

/-- Expectations that are mandatory after a run were so all along. -/
theorem mandatory_of_run {ι : Type} {ids : ι → Nat} (acts : List Act) (h : (s.run acts).Mandatory ids) :
    s.Mandatory ids := by
  intro i e he
  cases hoptional : e.optional with
  | false => rfl
  | true =>
    have hkept : ∃ e', (s.run acts).expectation? (ids i) = some e' ∧ e'.optional = true := by
      refine run_keeps (P := fun t => ∃ e', t.expectation? (ids i) = some e' ∧ e'.optional = true) acts
        ⟨e, he, hoptional⟩ ?_
      rintro t a ⟨old, hold, hopt⟩
      obtain ⟨new, hnew, hevolves⟩ := (change t a).evolves hold
      exact ⟨new, hnew, hevolves.optional_stays hopt⟩
    obtain ⟨e', he', hstays⟩ := hkept
    rw [h i e' he'] at hstays
    cases hstays

/-- Entangled expectations stay so in every run after which they are mandatory. -/
theorem entangled_run {ι : Type} {ids : ι → Nat} {acts : List Act} (h : s.Entangled ids)
    (hmandatory : (s.run acts).Mandatory ids) : (s.run acts).Entangled ids := by
  induction acts generalizing s with
  | nil => exact h
  | cons a acts ih =>
    have hbefore : s.Mandatory ids := mandatory_of_run (a :: acts) hmandatory
    exact ih ((change s a).entangled h hbefore) hmandatory

/-- A circle of declared prerequisites without calls entangles its members. -/
theorem entangled_of_circle {acts : List Act} {k : Nat} {circle : Fin (k + 1) → Nat}
    (hcircle : ∀ i, Declared acts (circle i) (circle (i + 1)))
    (hcount : ∀ i e, (run {} acts).expectation? (circle i) = some e → e.count = 0) :
    (run {} acts).Entangled circle := by
  intro i
  obtain ⟨e, he, hrequired⟩ := mem_requires_of_declared (hcircle i)
  exact ⟨e, he, hcount i e he, i + 1, hrequired⟩

/-- In every session that a run reaches, a call that is not refused counts an expectation that it picks, all of
    whose prerequisites declared so far are satisfied, and nothing else changes how often an expectation was called.
    Expectations that were declared to require each other in a circle before any of them was called, and are not
    optional, are therefore never called: a call that selects one of them is refused for its prerequisites. -/
theorem prerequisites_are_never_bypassed (acts : List Act) :
    (∀ m method args, ((run {} acts).call m method args).2.isRejected = false →
      ∃ id e, (run {} acts).Picks m method args id e ∧
        (run {} (acts ++ [.call m method args])).expectation? id = some e.counted ∧
        ∀ r, Declared acts id r → ∃ q, (run {} acts).expectation? r = some q ∧ q.satisfied = true) ∧
    (∀ a id e e', (run {} acts).expectation? id = some e →
      (run {} (acts ++ [a])).expectation? id = some e' → e'.count ≠ e.count →
      ∃ m method args, a = .call m method args ∧ (run {} acts).Picks m method args id e ∧
        ((run {} acts).call m method args).2.isRejected = false ∧
        ∀ r, Declared acts id r → ∃ q, (run {} acts).expectation? r = some q ∧ q.satisfied = true) ∧
    ∀ (k : Nat) (circle : Fin (k + 1) → Nat) (later : List Act),
      (∀ i, Declared acts (circle i) (circle (i + 1))) →
      (∀ i e, (run {} acts).expectation? (circle i) = some e → e.count = 0) →
      (run {} (acts ++ later)).Mandatory circle →
      (∀ i, ∃ e, (run {} (acts ++ later)).expectation? (circle i) = some e ∧ e.count = 0) ∧
      ∀ i m method args,
        (Selection.select (run {} (acts ++ later)).log ((run {} (acts ++ later)).expected m) method args).1 =
          .ok (circle i) →
        ∃ e, (run {} (acts ++ later)).expectation? (circle i) = some e ∧
          ((run {} (acts ++ later)).call m method args).2 =
            .rejected (prerequisiteFailure m e ((run {} (acts ++ later)).unmet e)) ∧
          (prerequisiteFailure m e ((run {} (acts ++ later)).unmet e)).header = Notice.prerequisitesNotMet := by
  refine ⟨?_, ?_, ?_⟩
  · intro m method args hanswered
    obtain ⟨id, e, hpicks, hmet, hcounted⟩ := picks_of_answered hanswered
    refine ⟨id, e, hpicks, ?_, fun r hr => declared_satisfied hr hpicks.found hmet⟩
    rw [run_append]
    exact hcounted
  · intro a id e e' he he' hcount
    rw [run_append] at he'
    obtain ⟨now, hnow, hevolves⟩ := (change (run {} acts) a).evolves he
    obtain rfl : now = e' := Option.some.inj (hnow.symm.trans he')
    rcases count_eq_or_picked hevolves with hsame | ⟨m, method, args, rfl, hpicks, hmet, hanswered⟩
    · exact absurd hsame hcount
    · exact ⟨m, method, args, rfl, hpicks, hanswered, fun r hr => declared_satisfied hr he hmet⟩
  · intro k circle later hcircle hcount hmandatory
    rw [run_append] at hmandatory ⊢
    have hentangled := entangled_run (entangled_of_circle hcircle hcount) hmandatory
    refine ⟨fun i => ?_, fun i m method args hselect => ?_⟩
    · obtain ⟨e, he, hzero, _⟩ := hentangled i
      exact ⟨e, he, hzero⟩
    · obtain ⟨e, hpicks⟩ := picks_of_select hselect
      have hunmet := hentangled.unmet_ne_nil hmandatory hpicks.found
      refine ⟨e, hpicks.found, ?_, prerequisiteFailure_header m e _⟩
      rw [hpicks.call_of_unmet hunmet]

/-- Two mocks, each with one expectation that requires that of the other. -/
def circleOfTwo : List Act :=
  [.newMock false, .newMock false, .onAny 0 "Open" "door.rs:1", .onAny 1 "Close" "door.rs:2",
    .configure 0 (.requires [1]), .configure 1 (.requires [0])]

private theorem declared_circleOfTwo (i : Fin 2) : Declared circleOfTwo i.val (i + 1).val := by
  match i with
  | 0 => exact ⟨circleOfTwo.take 4, [1], circleOfTwo.drop 5, rfl, by simp, by decide, by decide⟩
  | 1 => exact ⟨circleOfTwo.take 5, [0], [], rfl, by simp, by decide, by decide⟩

/-- A call that requires another one, which was made. -/
def closeAfterOpen : List Act :=
  [.newMock false, .newMock false, .onAny 0 "Open" "door.rs:1", .onAny 1 "Close" "door.rs:2",
    .configure 1 (.requires [0]), .call 0 "Open" []]

theorem prerequisites_of_doors :
    (∃ id e, (run {} closeAfterOpen).Picks 1 "Close" [] id e ∧
      ∀ r, Declared closeAfterOpen id r → ∃ q, (run {} closeAfterOpen).expectation? r = some q ∧
        q.satisfied = true) ∧
    (∃ m method args, Act.call 0 "Open" [] = .call m method args ∧
      (run {} (closeAfterOpen.take 5)).Picks m method args 0 (Expectation.onAny 0 "Open" "door.rs:1")) ∧
    ∃ e, (run {} (circleOfTwo ++ [.call 0 "Open" []])).expectation? 1 = some e ∧
      ((run {} (circleOfTwo ++ [.call 0 "Open" []])).call 1 "Close" []).2 =
        .rejected (prerequisiteFailure 1 e ((run {} (circleOfTwo ++ [.call 0 "Open" []])).unmet e)) := by
  refine ⟨?_, ?_, ?_⟩
  · obtain ⟨id, e, hpicks, _, hsatisfied⟩ :=
      (prerequisites_are_never_bypassed closeAfterOpen).1 1 "Close" [] rfl
    exact ⟨id, e, hpicks, hsatisfied⟩
  · obtain ⟨m, method, args, hcall, hpicks, _⟩ :=
      (prerequisites_are_never_bypassed (closeAfterOpen.take 5)).2.1 (.call 0 "Open" []) 0 _ _ rfl rfl (by decide)
    exact ⟨m, method, args, hcall, hpicks⟩
  · have hcount : ∀ (i : Fin 2) (e : Expectation),
        (run {} circleOfTwo).expectation? i.val = some e → e.count = 0 := by
      intro i e he
      match i with
      | 0 => cases he; rfl
      | 1 => cases he; rfl
    have hmandatory : (run {} (circleOfTwo ++ [.call 0 "Open" []])).Mandatory fun i : Fin 2 => i.val := by
      intro i e he
      match i with
      | 0 => cases he; rfl
      | 1 => cases he; rfl
    obtain ⟨_, hrefused⟩ := (prerequisites_are_never_bypassed circleOfTwo).2.2 1 (fun i => i.val)
      [.call 0 "Open" []] declared_circleOfTwo hcount hmandatory
    obtain ⟨e, he, hrejected, _⟩ := hrefused 1 1 "Close" [] rfl
    exact ⟨e, he, hrejected⟩

end TraitMock.Session
