import TraitMock.Proofs.Mock.Omission

namespace TraitMock

/-- The mock as it is without the expectation with the number `c`. -/
def Mock.leaveOut (c : Nat) (mock : Mock) : Mock :=
  { mock with expected := (mock.expected.filter (· ≠ c)).map (passed c) }

/-- A step of setting up with the numbers that expectations have without the one with the number `c`. -/
def Setting.passing (c : Nat) : Setting → Setting
  | .requires expectations => .requires (expectations.map (passed c))
  | setting => setting

namespace Act

/-- What is left of an act without the expectation with the number `c`. -/
def leaveOut (c : Nat) : Act → List Act
  | .configure id setting => if id = c then [] else [.configure (passed c id) (setting.passing c)]
  | .unset m id => if id = c then [] else [.unset m (passed c id)]
  | a => [a]

/-- The act makes the expectation with the number `c` a prerequisite. -/
def Requires (c : Nat) (a : Act) : Prop :=
  ∃ id expectations, a = .configure id (.requires expectations) ∧ c ∈ expectations

end Act

namespace Expectation

variable {c : Nat} {e e' : Expectation} {setting : Setting}

theorem passing_of_lt (h : ∀ r ∈ e.requires, r < c) : e.passing c = e := by
  have hrequires : e.requires.map (passed c) = e.requires :=
    (List.map_congr_left fun r hr => passed_of_lt (h r hr)).trans (List.map_id _)
  simp [passing, hrequires]

/-- Setting up does the same under other numbers. -/
theorem apply_passing (c : Nat) (e : Expectation) (setting : Setting) :
    (e.passing c).apply (setting.passing c) = (e.apply setting).map (passing c) := by
  cases setting with
  | with_ pattern =>
    simp only [apply, Setting.passing]
    cases refuseFunctions pattern with
    | error u => rfl
    | ok _ =>
      cases hproxy : e.proxy? <;> simp [passing, hproxy, bind, Except.bind, Except.map]
  | requires expectations => simp [apply, Setting.passing, passing, Except.map]
  | returns values => by_cases h : e.proxy?.isSome = true <;> simp [apply, Setting.passing, passing, Except.map, h]
  | times n => by_cases h : e.optional = true <;> simp [apply, Setting.passing, passing, Except.map, h]
  | optional => by_cases h : 0 < e.times <;> simp [apply, Setting.passing, passing, Except.map, h]
  | panics message => by_cases h : e.proxy?.isSome = true <;> simp [apply, Setting.passing, passing, Except.map, h]
  | _ => rfl

end Expectation

namespace Session

open Selection MatchLog

/-- The second session is the first one without the expectation with the number `c`, apart from the notes of the
    matchers inside a set and from what was reported. -/
structure Without (c : Nat) (inside : Nat → Prop) (s t : Session) : Prop where
  lt_length : c < s.expectations.length
  length : t.expectations.length + 1 = s.expectations.length
  found : ∀ id, id ≠ c → t.expectation? (passed c id) = (s.expectation? id).map (·.passing c)
  unrequired : ∀ id e, s.expectation? id = some e → c ∉ e.requires
  mocks : t.mocks = s.mocks.map (·.leaveOut c)
  notes : s.log.SameOutside inside t.log

variable {c m id : Nat} {inside : Nat → Prop} {s s' t t' : Session} {e : Expectation} {a : Act}

namespace Without

theorem of_eq (h : Without c inside s t) (hexp : s'.expectations = s.expectations)
    (hexp' : t'.expectations = t.expectations) (hmocks : s'.mocks = s.mocks) (hmocks' : t'.mocks = t.mocks)
    (hnotes : s'.log.SameOutside inside t'.log) : Without c inside s' t' where
  lt_length := hexp ▸ h.lt_length
  length := by rw [hexp, hexp', h.length]
  found id hid := by
    simp only [expectation?, hexp, hexp']
    exact h.found id hid
  unrequired id e he := h.unrequired id e (by simpa only [expectation?, hexp] using he)
  mocks := by rw [hmocks, hmocks', h.mocks]
  notes := hnotes

theorem mock? (h : Without c inside s t) (m : Nat) : t.mock? m = (s.mock? m).map (·.leaveOut c) := by
  rw [Session.mock?, h.mocks, List.getElem?_map]
  rfl

theorem registered (h : Without c inside s t) (m : Nat) :
    t.registered m = ((s.registered m).filter (· ≠ c)).map (passed c) := by
  unfold Session.registered
  rw [h.mock? m]
  cases s.mock? m <;> rfl

theorem expected (h : Without c inside s t) (m : Nat) : t.expected m = leaveOut c (s.expected m) := by
  rw [expected_eq, expected_eq, h.registered m, List.filterMap_map, List.filterMap_filter, leaveOut,
    List.filter_filterMap, List.map_filterMap]
  refine List.filterMap_congr fun id _ => ?_
  by_cases hid : id = c
  · cases s.expectation? id <;> simp [hid, Option.filter]
  · have hfound := h.found id hid
    cases hold : s.expectation? id with
    | none => simp [hid, hfound, hold]
    | some e => simp [hid, hfound, hold, renumbered, Option.filter]

theorem unmet (h : Without c inside s t) (hrequires : c ∉ e.requires) :
    t.unmet (e.passing c) = (s.unmet e).map (·.passing c) := by
  have hfound : (e.requires.map (passed c)).filterMap t.expectation? =
      (e.requires.filterMap s.expectation?).map (·.passing c) := by
    rw [List.filterMap_map, List.map_filterMap]
    exact List.filterMap_congr fun r hr => h.found r fun hc => hrequires (hc ▸ hr)
  simp only [Session.unmet]
  rw [show (e.passing c).requires = e.requires.map (passed c) from rfl, hfound, List.filter_map]
  rfl

theorem putMock (h : Without c inside s t) (m : Nat) (mock : Mock) :
    Without c inside (s.putMock m mock) (t.putMock m (mock.leaveOut c)) := by
  refine ⟨h.lt_length, h.length, h.found, h.unrequired, ?_, h.notes⟩
  simp only [Session.putMock, h.mocks, List.map_set]

theorem passed_lt_iff (h : Without c inside s t) (hid : id ≠ c) :
    passed c id < t.expectations.length ↔ id < s.expectations.length := by
  have hlength := h.length
  have hlt := h.lt_length
  unfold passed
  split <;> omega

theorem putExpectation (h : Without c inside s t) (hid : id ≠ c) (hrequires : c ∉ e.requires) :
    Without c inside (s.putExpectation id e) (t.putExpectation (passed c id) (e.passing c)) := by
  refine ⟨by simpa [Session.putExpectation] using h.lt_length, by simpa [Session.putExpectation] using h.length,
    fun j hj => ?_, fun j e' he' => ?_, h.mocks, h.notes⟩
  · have hfound := h.found j hj
    simp only [expectation?, Session.putExpectation, List.getElem?_set, passed_inj hid hj, h.passed_lt_iff hid]
      at hfound ⊢
    split
    · split <;> rfl
    · exact hfound
  · simp only [expectation?, Session.putExpectation, List.getElem?_set] at he'
    split at he'
    · split at he'
      · cases he'
        exact hrequires
      · cases he'
    · exact h.unrequired j e' he'

/-- Setting up the expectation that is left out changes nothing else. -/
theorem putExpectation_self (h : Without c inside s t) (hrequires : c ∉ e.requires) :
    Without c inside (s.putExpectation c e) t := by
  refine ⟨by simpa [Session.putExpectation] using h.lt_length, by simpa [Session.putExpectation] using h.length,
    fun j hj => ?_, fun j e' he' => ?_, h.mocks, h.notes⟩
  · simp only [expectation?, Session.putExpectation, List.getElem?_set, if_neg (Ne.symm hj)]
    exact h.found j hj
  · simp only [expectation?, Session.putExpectation, List.getElem?_set] at he'
    split at he'
    · split at he'
      · cases he'
        exact hrequires
      · cases he'
    · exact h.unrequired j e' he'

/-- One more expectation gets the next number in both sessions. -/
theorem append (h : Without c inside s t) (hrequires : e.requires = []) :
    Without c inside { s with expectations := s.expectations ++ [e] }
      { t with expectations := t.expectations ++ [e] } := by
  have hpassing : e.passing c = e := Expectation.passing_of_lt (by simp [hrequires])
  have hlt := h.lt_length
  have hlength := h.length
  refine ⟨by simp; omega, by simp; omega, fun id hid => ?_, fun id e' he' => ?_, h.mocks, h.notes⟩
  · have hfound := h.found id hid
    have hlt := h.passed_lt_iff hid
    simp only [expectation?, List.getElem?_append] at hfound ⊢
    by_cases hold : id < s.expectations.length
    · rw [if_pos hold, if_pos (hlt.mpr hold), hfound]
    · have hplace : passed c id - t.expectations.length = id - s.expectations.length := by
        rw [passed, if_pos (by omega)]
        omega
      rw [if_neg hold, if_neg (mt hlt.mp hold), hplace]
      cases id - s.expectations.length with
      | zero => simp [hpassing]
      | succ n => simp
  · simp only [expectation?, List.getElem?_append] at he'
    split at he'
    · exact h.unrequired id e' he'
    · obtain rfl : e' = e := by simpa using List.mem_of_getElem? he'
      simp [hrequires]

theorem register (h : Without c inside s t) (hrequires : e.requires = []) :
    Without c inside (s.register e).1 (t.register e).1 := by
  have hadded := h.append hrequires
  have hlt := h.lt_length
  have hlength := h.length
  unfold Session.register
  dsimp only
  rw [hadded.mock? e.owner]
  cases Session.mock? { s with expectations := s.expectations ++ [e] } e.owner with
  | none => exact hadded
  | some mock =>
    have hput := hadded.putMock e.owner { mock with expected := mock.expected ++ [s.expectations.length] }
    have hsame : Mock.leaveOut c { mock with expected := mock.expected ++ [s.expectations.length] } =
        { mock.leaveOut c with expected := (mock.leaveOut c).expected ++ [t.expectations.length] } := by
      have hnew : s.expectations.length ≠ c := by omega
      have hpassed : passed c s.expectations.length = t.expectations.length := by
        rw [passed, if_pos hlt]
        omega
      simp [Mock.leaveOut, hnew, hpassed]
    rwa [hsame] at hput

theorem record (h : Without c inside s t) (method : String) (args : Arguments) :
    Without c inside (s.record m method args) (t.record m method args) := by
  unfold Session.record
  rw [h.mock? m]
  cases s.mock? m with
  | none => exact h
  | some mock => exact h.putMock m { mock with calls := mock.calls ++ [⟨method, args, mock.keepsStacks⟩] }

theorem setData (h : Without c inside s t) (key : String) (v : Value) :
    Without c inside (s.setData m key v) (t.setData m key v) := by
  unfold Session.setData
  rw [h.mock? m]
  cases s.mock? m with
  | none => exact h
  | some mock => exact h.putMock m { mock with data := (key, v) :: mock.data.filter (·.1 ≠ key) }

theorem reject (h : Without c inside s t) (n n' : Notice) : Without c inside (s.reject m n) (t.reject m n') := by
  unfold Session.reject
  rw [h.mock? m]
  cases s.mock? m with
  | none => exact h.of_eq rfl rfl rfl rfl h.notes
  | some mock =>
    have hput := h.putMock m { mock with failed := true }
    exact hput.of_eq rfl rfl rfl rfl hput.notes

theorem newMock (h : Without c inside s t) (keepsStacks : Bool) :
    Without c inside (s.newMock keepsStacks).1 (t.newMock keepsStacks).1 := by
  refine ⟨h.lt_length, h.length, h.found, h.unrequired, ?_, h.notes⟩
  simp [Session.newMock, h.mocks, Mock.leaveOut]

theorem known (h : Without c inside s t) {setting : Setting}
    (hrequires : ∀ expectations, setting = .requires expectations → c ∉ expectations) :
    t.known (setting.passing c) = (s.known setting).passing c := by
  cases setting with
  | requires expectations =>
    have hnot := hrequires expectations rfl
    simp only [Session.known, Setting.passing, List.filter_map]
    congr 2
    refine List.filter_congr fun r hr => ?_
    have hr : r ≠ c := fun hc => hnot (hc ▸ hr)
    simpa using h.passed_lt_iff hr
  | _ => rfl

/-- Nothing makes the expectation that is left out a prerequisite, unless it is asked to. -/
theorem not_mem_requires_of_apply {e e' : Expectation} {setting : Setting} (he : c ∉ e.requires)
    (happly : e.apply (s.known setting) = .ok e')
    (hrequires : ∀ expectations, setting = .requires expectations → c ∉ expectations) : c ∉ e'.requires := by
  intro hc
  rcases (Expectation.applied_of_apply happly).mem_requires hc with hold | ⟨expectations, hsetting, hmem⟩
  · exact he hold
  · cases setting with
    | requires given =>
      obtain rfl : given.filter (· < s.expectations.length) = expectations := Setting.requires.inj hsetting
      exact hrequires given rfl (List.mem_of_mem_filter hmem)
    | _ => cases hsetting

theorem configure (h : Without c inside s t) {setting : Setting}
    (hrequires : ∀ expectations, setting = .requires expectations → c ∉ expectations) :
    Without c inside (s.after (.configure id setting)) (t.run (Act.leaveOut c (.configure id setting))) := by
  by_cases hid : id = c
  · subst hid
    rw [Act.leaveOut, if_pos rfl]
    rcases after_configure_cases s id setting with hsame | ⟨e, e', hfound, happly, hput⟩
    · rwa [hsame, run_nil]
    · rw [hput, run_nil]
      exact h.putExpectation_self (not_mem_requires_of_apply (h.unrequired id e hfound) happly hrequires)
  · have hfound' := h.found id hid
    rw [Act.leaveOut, if_neg hid, run_cons, run_nil]
    simp only [Session.after, Session.configure]
    cases hfound : s.expectation? id with
    | none => simpa [hfound, hfound'] using h
    | some e =>
      have happly' := Expectation.apply_passing c e (s.known setting)
      rw [hfound, Option.map_some] at hfound'
      rw [← h.known hrequires] at happly'
      cases happly : e.apply (s.known setting) with
      | error u => simpa [happly, happly', hfound', Except.map] using h
      | ok e' =>
        have hnot := not_mem_requires_of_apply (h.unrequired id e hfound) happly hrequires
        simpa [happly, happly', hfound', Except.map] using h.putExpectation hid hnot

/-- What happens to the mock apart from the expectation that is left out happens to it in one session only. -/
theorem putMock_self (h : Without c inside s t) {old mock : Mock} (hold : s.mock? m = some old)
    (hsame : mock.leaveOut c = old.leaveOut c) : Without c inside (s.putMock m mock) t := by
  refine ⟨h.lt_length, h.length, h.found, h.unrequired, ?_, h.notes⟩
  obtain ⟨hlt, hget⟩ := List.getElem?_eq_some_iff.mp hold
  have hself : s.mocks.set m old = s.mocks := by
    rw [← hget]
    exact List.set_getElem_self hlt
  calc t.mocks = (s.mocks.set m old).map (·.leaveOut c) := by rw [hself, h.mocks]
    _ = (s.mocks.set m mock).map (·.leaveOut c) := by rw [List.map_set, List.map_set, hsame]

private theorem contains_leaveOut {mock : Mock} (hid : id ≠ c) :
    (mock.leaveOut c).expected.contains (passed c id) = mock.expected.contains id := by
  rw [Bool.eq_iff_iff, List.contains_iff_mem, List.contains_iff_mem]
  simp only [Mock.leaveOut, List.mem_map, List.mem_filter, decide_eq_true_eq]
  constructor
  · rintro ⟨j, ⟨hmem, hj⟩, hsame⟩
    rwa [← (passed_inj hj hid).mp hsame]
  · intro hmem
    exact ⟨id, ⟨hmem, hid⟩, rfl⟩

private theorem leaveOut_filter {mock : Mock} (hid : id ≠ c) :
    Mock.leaveOut c { mock with expected := mock.expected.filter (· ≠ id) } =
      { mock.leaveOut c with expected := (mock.leaveOut c).expected.filter (· ≠ passed c id) } := by
  simp only [Mock.leaveOut, Mock.mk.injEq, List.filter_map, List.filter_filter, true_and, and_true]
  congr 1
  refine List.filter_congr fun j _ => ?_
  by_cases hj : j = c
  · simp [hj]
  · simp [hj, passed_inj hj hid]

/-- When the expectation that is left out is taken off a mock, nothing happens in the second session. -/
theorem unset_self (h : Without c inside s t) (m : Nat) : Without c inside (s.unset m c) t := by
  have hhelper : Without c inside s.helper t := h.of_eq rfl rfl rfl rfl h.notes
  unfold Session.unset
  cases hmock : s.helper.mock? m with
  | none => simpa [hmock] using hhelper
  | some mock =>
    cases hfound : s.helper.expectation? c with
    | none => simpa [hmock, hfound] using hhelper
    | some e =>
      have hsame : Mock.leaveOut c { mock with expected := mock.expected.filter (· ≠ c) } = mock.leaveOut c := by
        simp [Mock.leaveOut]
      simp only [hmock, hfound]
      split
      · exact hhelper.putMock_self hmock hsame
      · exact hhelper.of_eq rfl rfl rfl rfl hhelper.notes

private theorem unset_of_ne (h : Without c inside s t) (m : Nat) (hid : id ≠ c) :
    Without c inside (s.unset m id) (t.unset m (passed c id)) := by
  have hboth : Without c inside s.helper t.helper := h.of_eq rfl rfl rfl rfl h.notes
  simp only [Session.unset, hboth.mock? m, hboth.found id hid]
  cases s.helper.mock? m with
  | none => exact hboth
  | some mock =>
    cases s.helper.expectation? id with
    | none => exact hboth
    | some e =>
      simp only [Option.map_some, contains_leaveOut hid]
      split
      · have hput := hboth.putMock m { mock with expected := mock.expected.filter (· ≠ id) }
        rwa [leaveOut_filter hid] at hput
      · exact hboth.of_eq rfl rfl rfl rfl hboth.notes

theorem unset (h : Without c inside s t) (m id : Nat) :
    Without c inside (s.unset m id) (t.run (Act.leaveOut c (.unset m id))) := by
  by_cases hid : id = c
  · rw [Act.leaveOut, if_pos hid, hid, run_nil]
    exact h.unset_self m
  · rw [Act.leaveOut, if_neg hid]
    exact h.unset_of_ne m hid

/-- An expectation that a mock does not have is not among those that it audits. -/
theorem expected_of_absent (h : Without c inside s t) (habsent : c ∉ s.registered m) :
    t.expected m = (s.expected m).map (renumbered c) := by
  have hothers : (s.expected m).filter (fun x => x.1 ≠ c) = s.expected m := List.filter_eq_self.mpr fun x hx => by
    have hid := (mem_expected.mp hx).1
    exact decide_eq_true fun hc : x.1 = c => habsent (hc ▸ hid)
  rw [h.expected m, leaveOut, hothers]

private theorem auditFailure_passing (c : Nat) (unsatisfied : List Expectation) :
    auditFailure (unsatisfied.map (·.passing c)) = auditFailure unsatisfied := by
  simp only [auditFailure, List.map_map]
  rfl

/-- A check of a mock ends in the same way in both sessions, with the same reports of errors. -/
structure SameCheck (s t : Session) (r r' : Session × Bool) : Prop where
  verdict : r'.2 = r.2
  reports : ∃ report, r.1.spy.errors = s.spy.errors ++ report ∧ r'.1.spy.errors = t.spy.errors ++ report

theorem audit (h : Without c inside s t) (habsent : c ∉ s.registered m) :
    Without c inside (s.audit m).1 (t.audit m).1 ∧ SameCheck s t (s.audit m) (t.audit m) := by
  have hboth : Without c inside s.helper t.helper := h.of_eq rfl rfl rfl rfl h.notes
  have hsilent : ∀ {s' t' : Session} {b : Bool}, s'.spy = s.helper.spy → t'.spy = t.helper.spy →
      SameCheck s t (s', b) (t', b) :=
    fun hs ht => ⟨rfl, [], by simp [hs, helper, Spy.helper], by simp [ht, helper, Spy.helper]⟩
  have hunsatisfied : ((t.helper.expected m).map (·.2)).filter (fun e => !e.satisfied) =
      (((s.helper.expected m).map (·.2)).filter fun e => !e.satisfied).map (·.passing c) := by
    rw [hboth.expected_of_absent habsent, List.map_map, List.filter_map, List.filter_map, List.map_map]
    rfl
  unfold Session.audit
  simp only [hboth.mock? m]
  cases s.helper.mock? m with
  | none => exact ⟨hboth, hsilent rfl rfl⟩
  | some mock =>
    simp only [Option.map_some, show (mock.leaveOut c).audited? = mock.audited? from rfl,
      show (mock.leaveOut c).failed = mock.failed from rfl, hunsatisfied]
    cases mock.audited? with
    | some verdict => exact ⟨hboth, hsilent rfl rfl⟩
    | none =>
      dsimp only
      split
      · exact ⟨hboth.putMock m { mock with audited? := some false }, hsilent rfl rfl⟩
      · cases ((s.helper.expected m).map (·.2)).filter fun e => !e.satisfied with
        | nil => exact ⟨hboth.putMock m { mock with audited? := some true }, hsilent rfl rfl⟩
        | cons first rest =>
          have hput := hboth.putMock m { mock with failed := true, audited? := some false }
          refine ⟨hput.of_eq rfl rfl rfl rfl hput.notes, rfl, [(auditFailure (first :: rest)).text], rfl, ?_⟩
          rw [← auditFailure_passing c]
          rfl

variable {method : String} {args : Arguments} {similar : Notice → Notice → Prop}

private theorem prerequisiteFailure_passing (c m : Nat) (e : Expectation) (unmet : List Expectation) :
    prerequisiteFailure m (e.passing c) (unmet.map (·.passing c)) = prerequisiteFailure m e unmet := by
  simp only [prerequisiteFailure, List.foldl_map]
  rfl

/-- What a call picks in the first session it picks in the second one, where that is known by another number. -/
theorem picks (h : Without c inside s t) (hpicks : s.Picks m method args id e) (hid : id ≠ c)
    (hselected : (select t.log (t.expected m) method args).1 = .ok (passed c id)) :
    t.Picks m method args (passed c id) (e.passing c) := by
  obtain ⟨e', hpicks'⟩ := picks_of_select hselected
  have hfound := h.found id hid
  rw [hpicks.found, hpicks'.found] at hfound
  obtain rfl : e' = e.passing c := Option.some.inj hfound
  exact hpicks'

/-- A call is refused in both sessions, or answered in both by the same expectation. -/
theorem call_cases (h : Without c inside s t) (hrefl : ∀ n, similar n n)
    (halike : SamePick c similar (select s.log (s.expected m) method args).1
      (select t.log (t.expected m) method args).1)
    (hnot : ∀ e, ¬s.Picks m method args c e) :
    (∃ n n', similar n n' ∧
      s.call m method args =
        ({ s.helper with log := s.selectionLog m method args }.reject m n, .rejected n) ∧
      t.call m method args =
        ({ t.helper with log := t.selectionLog m method args }.reject m n', .rejected n')) ∨
    ∃ id e, id ≠ c ∧ s.Picks m method args id e ∧ s.unmet e = [] ∧
      t.Picks m method args (passed c id) (e.passing c) ∧ t.unmet (e.passing c) = [] := by
  generalize hs : (select s.log (s.expected m) method args).1 = r at halike
  generalize ht : (select t.log (t.expected m) method args).1 = r' at halike
  cases halike with
  | @refused n n' hsimilar => exact .inl ⟨n, n', hsimilar, call_of_select_error hs, call_of_select_error ht⟩
  | picked id =>
    obtain ⟨e, hpicks⟩ := picks_of_select hs
    have hid : id ≠ c := fun hc => hnot e (hc ▸ hpicks)
    have hpicks' := h.picks hpicks hid ht
    have hunmet := h.unmet (h.unrequired id e hpicks.found)
    by_cases hmet : s.unmet e = []
    · exact .inr ⟨id, e, hid, hpicks, hmet, hpicks', by rw [hunmet, hmet]; rfl⟩
    · have hmet' : t.unmet (e.passing c) ≠ [] := by simpa [hunmet] using hmet
      have hcall' := hpicks'.call_of_unmet hmet'
      rw [hunmet, prerequisiteFailure_passing] at hcall'
      exact .inl ⟨_, _, hrefl _, hpicks.call_of_unmet hmet, hcall'⟩

/-- A selection that does not pick the expectation that is left out picks the same in both sessions. -/
theorem select (h : Without c inside s t) (hnot : ∀ e, ¬s.Picks m method args c e)
    (hcompares : ∀ x ∈ s.expected m, x.1 = c → x.2.ComparesInside inside) :
    SamePick c (fun _ _ => True) (Selection.select s.log (s.expected m) method args).1
        (Selection.select t.log (t.expected m) method args).1 ∧
      (s.selectionLog m method args).SameOutside inside (t.selectionLog m method args) := by
  unfold selectionLog
  rw [h.expected m]
  exact select_leaveOut h.notes hcompares (fun hc => (picks_of_select hc).elim hnot) fun _ _ _ => trivial

theorem call (h : Without c inside s t) (hnot : ∀ e, ¬s.Picks m method args c e)
    (hcompares : ∀ x ∈ s.expected m, x.1 = c → x.2.ComparesInside inside) :
    Without c inside (s.call m method args).1 (t.call m method args).1 := by
  obtain ⟨hselect, hnotes⟩ := h.select hnot hcompares
  have hstart : Without c inside { s.helper with log := s.selectionLog m method args }
      { t.helper with log := t.selectionLog m method args } := h.of_eq rfl rfl rfl rfl hnotes
  rcases h.call_cases (fun _ => trivial) hselect hnot with
    ⟨n, n', -, hcall, hcall'⟩ | ⟨id, e, hid, hpicks, hmet, hpicks', hmet'⟩
  · rw [hcall, hcall']
    exact hstart.reject n n'
  · rw [hpicks.call_eq hmet, hpicks'.call_eq hmet']
    exact (hstart.record method args).putExpectation hid (h.unrequired id e hpicks.found)

end Without

/-- The check of how often a method was called reports at most an error. -/
theorem assertCallCount_cases (s : Session) (m : Nat) (method : String) (want : Nat) :
    (s.assertCallCount m method want).1 = s.helper ∨
      ∃ n, (s.assertCallCount m method want).1 = s.helper.reportError n := by
  unfold assertCallCount
  dsimp only
  split
  · exact .inl rfl
  · exact .inr ⟨_, rfl⟩

/-- An act leaves the expectation with the number `c` alone: it is not picked by a call, nor found by a query unless all
    notes may differ, nor audited, and it compares with no other matchers than those inside. -/
structure Spares (c : Nat) (inside : Nat → Prop) (s : Session) (a : Act) : Prop where
  unpicked : ∀ m method args, a = .call m method args → ∀ e, ¬s.Picks m method args c e
  unfound : ∀ m method args, a = .callable m method args → (∀ id, inside id) ∨ ∀ e, ¬s.Picks m method args c e
  unaudited : ∀ m, a = .audit m → c ∉ s.registered m
  compares : ∀ m e, (c, e) ∈ s.expected m → e.ComparesInside inside

/-- Every act that leaves an expectation alone does the same without it. -/
theorem Without.after (h : Without c inside s t) (hspares : s.Spares c inside a) (hrequires : ¬a.Requires c) :
    Without c inside (s.after a) (t.run (a.leaveOut c)) := by
  have hcompares : ∀ m, ∀ x ∈ s.expected m, x.1 = c → x.2.ComparesInside inside := by
    rintro m ⟨id, e⟩ hx hc
    obtain rfl : id = c := hc
    exact hspares.compares m e hx
  have hregistration : ∀ b : Act, b.isRegistration = true → Without c inside (s.after b) (t.after b) := by
    intro b hb
    cases hregistered : b.registered? with
    | none => rwa [after_of_registered?_eq_none s hb hregistered, after_of_registered?_eq_none t hb hregistered]
    | some e =>
      rw [after_of_registered? s hregistered, after_of_registered? t hregistered]
      exact h.register (Act.isNew_of_registered? hregistered).requires
  cases a with
  | newMock keepsStacks => exact h.newMock keepsStacks
  | on m method pattern location => exact hregistration _ rfl
  | onAny m method location => exact hregistration _ rfl
  | answerWith m proxy location => exact hregistration _ rfl
  | configure id setting =>
    exact h.configure fun expectations hsetting hmem => hrequires ⟨id, expectations, by rw [hsetting], hmem⟩
  | unset m id => exact h.unset m id
  | call m method args => exact h.call (hspares.unpicked m method args rfl) (hcompares m)
  | callable m method args =>
    rcases hspares.unfound m method args rfl with hall | hnot
    · exact h.of_eq rfl rfl rfl rfl (.of_forall hall)
    · exact h.of_eq rfl rfl rfl rfl (h.select hnot (hcompares m)).2
  | setData m key v => exact h.setData key v
  | audit m => exact (h.audit (hspares.unaudited m rfl)).1
  | assertCallCount m method want =>
    change Without c inside (s.assertCallCount m method want).1 (t.assertCallCount m method want).1
    rcases assertCallCount_cases s m method want with hsame | ⟨n, hsame⟩ <;>
      rcases assertCallCount_cases t m method want with hsame' | ⟨n', hsame'⟩ <;> rw [hsame, hsame'] <;>
      exact h.of_eq rfl rfl rfl rfl h.notes

end Session
end TraitMock
