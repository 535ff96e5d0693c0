import TraitMock.Proofs.Mock.Evolution

namespace TraitMock

/-- The failure that a refused call reports. -/
def Reply.refusal? : Reply → Option String
  | .rejected notice => some notice.text
  | _ => none

private theorem Reply.isSome_refusal? (r : Reply) : r.refusal?.isSome = r.isRejected := by
  cases r <;> rfl

private theorem Reply.refusal?_eq_none {r : Reply} (h : r.isRejected = false) : r.refusal? = none := by
  cases r with
  | rejected notice => cases h
  | returned values => rfl
  | panicked payload => rfl

namespace Session

variable {s t : Session} {m : Nat} {mock : Mock}

/-- The failures that refused calls report, in order. -/
def refusals (replies : List Replied) : List String := replies.filterMap fun r => r.reply.refusal?

/-- The expectations of a mock that are not satisfied, with their numbers, in the order of registration. -/
def unsatisfied (s : Session) (m : Nat) : List Selection.Candidate :=
  (s.expected m).filter fun c => !c.2.satisfied

theorem unsatisfied_eq_nil_iff : s.unsatisfied m = [] ↔ ∀ c ∈ s.expected m, c.2.satisfied = true := by
  simp only [unsatisfied, List.filter_eq_nil_iff, Bool.not_eq_true, Bool.not_eq_false']

/-- The numbers of the unsatisfied expectations of a mock are in the order of registration. -/
theorem unsatisfied_ordered (hs : s.Sound) (m : Nat) :
    ((s.unsatisfied m).map (·.1)).Pairwise (· < ·) := by
  have hsub : ((s.unsatisfied m).map (·.1)).Sublist (s.registered m) := by
    have hexpected : ((s.expected m).map (·.1)).Sublist (s.registered m) := by
      unfold expected registered
      cases s.mock? m with
      | none => exact .slnil
      | some mock =>
        simp only [Option.map_some, Option.getD_some]
        induction mock.expected with
        | nil => exact .slnil
        | cons id rest ih =>
          cases hid : s.expectation? id with
          | none => simpa [hid] using ih.cons id
          | some e => simpa [hid] using ih.cons_cons id
    exact (List.filter_sublist.map _).trans hexpected
  exact (hs.ordered m).sublist hsub

/-- The report of the audit of a mock that refused no call, if any. -/
def shortfall (s : Session) (m : Nat) : List String :=
  match s.unsatisfied m with
  | [] => []
  | unsatisfied => [(auditFailure (unsatisfied.map (·.2))).text]

/-- The verdict of the audit of a mock, once there was one. -/
def verdict? (s : Session) (m : Nat) : Option Bool := (s.mock? m).bind (·.audited?)

theorem verdict?_putMock {old : Mock} (h : s.mock? m = some old) : (s.putMock m mock).verdict? m = mock.audited? := by
  rw [verdict?, mock?_putMock h, if_pos rfl]
  rfl

/-- The first audit of a mock that refused a call fails and reports nothing more. -/
theorem audit_of_failed (hmock : s.mock? m = some mock) (hfirst : mock.audited? = none)
    (hfailed : mock.failed = true) :
    s.audit m = (s.helper.putMock m { mock with audited? := some false }, false) := by
  have hhelper : s.helper.mock? m = some mock := hmock
  simp only [audit, hhelper, hfirst, hfailed, if_true]

/-- The first audit of a mock that refused no call fails with a report of the unsatisfied expectations, if there
    are any. -/
theorem audit_of_not_failed (hmock : s.mock? m = some mock) (hfirst : mock.audited? = none)
    (hfailed : mock.failed = false) :
    (s.audit m).1.spy.errors = s.spy.errors ++ s.shortfall m ∧ (s.audit m).1.spy.fatals = s.spy.fatals ∧
      (s.audit m).1.verdict? m = some (s.unsatisfied m).isEmpty := by
  have hhelper : s.helper.mock? m = some mock := hmock
  have hexpected : s.helper.expected m = s.expected m := rfl
  have hfilter : ((s.expected m).map (·.2)).filter (fun e => !e.satisfied) = (s.unsatisfied m).map (·.2) :=
    List.filter_map
  simp only [audit, hhelper, hfirst, hfailed, hexpected, hfilter, Bool.false_eq_true, if_false, shortfall]
  cases s.unsatisfied m with
  | nil => exact ⟨(List.append_nil _).symm, rfl, verdict?_putMock hhelper⟩
  | cons c rest => exact ⟨rfl, rfl, verdict?_putMock hhelper⟩

/-- A later audit repeats the verdict of the first one. -/
theorem audit_of_verdict {verdict : Bool} (h : s.verdict? m = some verdict) : s.audit m = (s.helper, verdict) := by
  obtain ⟨mock, hmock, haudited⟩ := Option.bind_eq_some_iff.mp h
  have hhelper : s.helper.mock? m = some mock := hmock
  simp only [audit, hhelper, haudited]

/-- Later audits change nothing but how often the spy was told of a helper. -/
theorem run_audits {verdict : Bool} (h : s.verdict? m = some verdict) (n : Nat) :
    s.run (List.replicate n (.audit m)) = { s with spy := { s.spy with helpers := s.spy.helpers + n } } := by
  induction n generalizing s with
  | zero => rfl
  | succ n ih =>
    have hfirst : s.after (.audit m) = s.helper := congrArg Prod.fst (audit_of_verdict h)
    have hverdict : s.helper.verdict? m = some verdict := h
    rw [List.replicate_succ, run_cons, hfirst, ih hverdict]
    simp only [helper, Spy.helper, Nat.add_assoc, Nat.add_comm 1 n]

/-- Closing a spy whose only cleanup is the audit of a mock audits that mock. -/
theorem close_of_audit (h : s.spy.cleanups = [.audit m]) :
    s.close = (({ s with spy := { s.spy with cleanups := [] } } : Session).audit m |>.1, none) := by
  have hpending : closing.pending s = [.audit m] := h
  simp only [close, Closing.close, hpending, Cleanup.sizeAll, Cleanup.size, Closing.rounds, List.reverse_singleton,
    Closing.batch]
  rfl

/-- A spy with one mock, before the test. -/
def start (keepsStacks : Bool) : Session := (newMock {} keepsStacks).1

/-- What a test with one mock does before it is closed. It takes only expectations off the mock that the mock has,
    and neither audits nor checks it. -/
def Exercises (s : Session) : Act → Prop
  | .on m _ _ _ => m = 0
  | .onAny m _ _ => m = 0
  | .answerWith m _ _ => m = 0
  | .configure _ _ => True
  | .unset m id => m = 0 ∧ id ∈ s.registered 0
  | .call m _ _ => m = 0
  | .callable m _ _ => m = 0
  | .setData m _ _ => m = 0
  | .newMock _ => False
  | .audit _ => False
  | .assertCallCount _ _ _ => False

/-- A test with one mock that is not audited yet, after calls that were refused with the given failures. -/
structure InTest (s : Session) (failures : List String) : Prop where
  errors : s.spy.errors = []
  fatals : s.spy.fatals = failures
  cleanups : s.spy.cleanups = [.audit 0]
  mock : ∃ mock, s.mock? 0 = some mock ∧ mock.audited? = none ∧ mock.failed = !failures.isEmpty

private theorem inTest_start (keepsStacks : Bool) : (start keepsStacks).InTest [] :=
  ⟨rfl, rfl, rfl, _, rfl, rfl, rfl⟩

variable {failures : List String}

theorem InTest.of_eq (h : s.InTest failures) (hmocks : t.mocks = s.mocks) (hspy : t.spy = s.spy) :
    t.InTest failures := by
  obtain ⟨mock, hmock, haudited, hfailed⟩ := h.mock
  refine ⟨hspy ▸ h.errors, hspy ▸ h.fatals, hspy ▸ h.cleanups, mock, ?_, haudited, hfailed⟩
  rw [mock?, hmocks]
  exact hmock

theorem InTest.helper (h : s.InTest failures) : s.helper.InTest failures :=
  ⟨h.errors, h.fatals, h.cleanups, h.mock⟩

/-- A mock may change in all but its failure and its verdict. -/
theorem InTest.putMock {old : Mock} (h : s.InTest failures) (hold : s.mock? m = some old)
    (haudited : mock.audited? = old.audited?) (hfailed : mock.failed = old.failed) :
    (s.putMock m mock).InTest failures := by
  refine ⟨h.errors, h.fatals, h.cleanups, ?_⟩
  obtain ⟨first, hfirst, hfirstAudited, hfirstFailed⟩ := h.mock
  rw [mock?_putMock hold]
  by_cases hm : 0 = m
  · subst hm
    obtain rfl : old = first := Option.some.inj (hold.symm.trans hfirst)
    exact ⟨mock, if_pos rfl, haudited.trans hfirstAudited, hfailed.trans hfirstFailed⟩
  · exact ⟨first, (if_neg hm).trans hfirst, hfirstAudited, hfirstFailed⟩

theorem InTest.register (h : s.InTest failures) (e : Expectation) : (s.register e).1.InTest failures := by
  have hadded : ({ s with expectations := s.expectations ++ [e] } : Session).InTest failures := h.of_eq rfl rfl
  unfold Session.register
  dsimp only
  split
  · rename_i mock hmock
    exact hadded.putMock hmock rfl rfl
  · exact hadded

theorem InTest.unset (h : s.InTest failures) {id : Nat} (hid : id ∈ s.registered m) :
    (s.unset m id).InTest failures := by
  unfold Session.unset
  dsimp only
  split
  · rename_i mock e hmock _
    have hhas : mock.expected.contains id = true := by
      rw [← registered_of_mock? hmock]
      exact List.contains_iff_mem.mpr hid
    rw [if_pos hhas]
    exact h.helper.putMock hmock rfl rfl
  · exact h.helper

theorem InTest.setData (h : s.InTest failures) (key : String) (v : Value) :
    (s.setData m key v).InTest failures := by
  unfold Session.setData
  split
  · rename_i mock hmock
    exact h.putMock hmock rfl rfl
  · exact h

theorem InTest.record (h : s.InTest failures) (method : String) (args : Arguments) :
    (s.record m method args).InTest failures := by
  unfold Session.record
  split
  · rename_i mock hmock
    exact h.putMock hmock rfl rfl
  · exact h

/-- A refused call fails the mock and reports a further fatal failure. -/
theorem InTest.reject (h : s.InTest failures) (n : Notice) :
    (s.reject 0 n).InTest (failures ++ [n.text]) := by
  obtain ⟨mock, hmock, haudited, _⟩ := h.mock
  have hput : (s.putMock 0 { mock with failed := true }).mock? 0 = some { mock with failed := true } := by
    rw [mock?_putMock hmock, if_pos rfl]
  simp only [Session.reject, hmock]
  refine ⟨h.errors, ?_, h.cleanups, { mock with failed := true }, hput, haudited, by simp⟩
  change s.spy.fatals ++ [n.text] = failures ++ [n.text]
  rw [h.fatals]

/-- A call adds the failure it reports, if it is refused. -/
theorem InTest.call (h : s.InTest failures) (method : String) (args : Arguments) :
    (s.call 0 method args).1.InTest (failures ++ refusals (s.replied (.call 0 method args))) := by
  have hselected : ({ s.helper with log := s.selectionLog 0 method args } : Session).InTest failures :=
    h.helper.of_eq rfl rfl
  rcases call_cases s 0 method args with ⟨n, hcall⟩ | ⟨id, e, hpicks, hmet⟩
  · have hrefusals : refusals (s.replied (.call 0 method args)) = [n.text] := by
      simp [refusals, replied, hcall, Reply.refusal?]
    rw [hrefusals, hcall]
    exact hselected.reject n
  · obtain ⟨reply, hanswered, hcall⟩ := hpicks.call_of_met hmet
    have hrefusals : refusals (s.replied (.call 0 method args)) = [] := by
      simp [refusals, replied, hcall, Reply.refusal?_eq_none hanswered]
    rw [hrefusals, List.append_nil, hcall]
    exact (hselected.record method args).of_eq rfl rfl

/-- Every act of a test leaves the mock without an audit, and only refused calls report anything. -/
theorem InTest.after {a : Act} (h : s.InTest failures) (ha : s.Exercises a) :
    (s.after a).InTest (failures ++ refusals (s.replied a)) := by
  have hsilent : s.replied a = [] → (s.after a).InTest failures →
      (s.after a).InTest (failures ++ refusals (s.replied a)) := by
    intro hnone hkept
    simpa [hnone, refusals] using hkept
  have hregistration : ∀ b : Act, b.isRegistration = true → (s.after b).InTest failures := by
    intro b hb
    rcases after_registration_cases s hb with ⟨_, hsame⟩ | ⟨e, _, hregister⟩
    · rwa [hsame]
    · rw [hregister]
      exact h.register e
  cases a with
  | on m method pattern location => exact hsilent rfl (hregistration _ rfl)
  | onAny m method location => exact hsilent rfl (hregistration _ rfl)
  | answerWith m proxy location => exact hsilent rfl (hregistration _ rfl)
  | configure id setting =>
    refine hsilent rfl ?_
    rcases after_configure_cases s id setting with hsame | ⟨e, e', _, _, hput⟩
    · rwa [hsame]
    · rw [hput]
      exact h.of_eq rfl rfl
  | unset m id =>
    obtain ⟨rfl, hid⟩ := ha
    exact hsilent rfl (h.unset hid)
  | call m method args =>
    obtain rfl : m = 0 := ha
    exact h.call method args
  | callable m method args => exact hsilent rfl (h.of_eq rfl rfl)
  | setData m key v => exact hsilent rfl (h.setData key v)
  | newMock keepsStacks => exact ha.elim
  | audit m => exact ha.elim
  | assertCallCount m method want => exact ha.elim

theorem InTest.run {acts : List Act} (h : s.InTest failures) (hacts : s.Along Exercises acts) :
    (s.run acts).InTest (failures ++ refusals (s.replies acts)) := by
  induction acts generalizing s failures with
  | nil => simpa [refusals, replies] using h
  | cons a acts ih =>
    obtain ⟨hfirst, hrest⟩ := hacts
    have hlast := ih (h.after hfirst) hrest
    rw [List.append_assoc] at hlast
    simpa only [run_cons, replies, refusals, List.filterMap_append] using hlast

/-- Closing the spy of a test reports the unsatisfied expectations unless a call was refused, and nothing else. -/
theorem InTest.close (h : s.InTest failures) :
    s.close.2 = none ∧ s.close.1.spy.fatals = failures ∧
      s.close.1.spy.errors = (if failures = [] then s.shortfall 0 else []) ∧
      s.close.1.verdict? 0 = some (decide (failures = [] ∧ s.unsatisfied 0 = [])) := by
  obtain ⟨mock, hmock, haudited, hfailed⟩ := h.mock
  let cleared : Session := { s with spy := { s.spy with cleanups := [] } }
  have hcleared : cleared.mock? 0 = some mock := hmock
  have hclose : s.close = ((cleared.audit 0).1, none) := close_of_audit h.cleanups
  rw [hclose]
  refine ⟨rfl, ?_⟩
  cases failures with
  | nil =>
    obtain ⟨herrors, hfatals, hverdict⟩ := audit_of_not_failed hcleared haudited hfailed
    refine ⟨hfatals.trans h.fatals, ?_, ?_⟩
    · rw [herrors, if_pos rfl]
      change s.spy.errors ++ s.shortfall 0 = s.shortfall 0
      rw [h.errors, List.nil_append]
    · rw [hverdict]
      change some (s.unsatisfied 0).isEmpty = _
      cases s.unsatisfied 0 <;> simp
  | cons first rest =>
    -- the mock has failed already, so its audit finds fault without a report
    rw [audit_of_failed hcleared haudited hfailed]
    refine ⟨h.fatals, ?_, ?_⟩
    · rw [if_neg (by simp)]
      exact h.errors
    · rw [verdict?_putMock (s := cleared.helper) hcleared]
      simp

private theorem shortfall_eq_nil_iff : s.shortfall m = [] ↔ s.unsatisfied m = [] := by
  unfold shortfall
  cases s.unsatisfied m <;> simp

/-- A reported shortfall has one line for each unsatisfied expectation. -/
theorem mem_shortfall {error : String} (h : error ∈ s.shortfall m) :
    error = (auditFailure ((s.unsatisfied m).map (·.2))).text := by
  unfold shortfall at h
  split at h
  · cases h
  · exact List.mem_singleton.mp h

private theorem length_shortfall_le (s : Session) (m : Nat) : (s.shortfall m).length ≤ 1 := by
  unfold shortfall
  split <;> simp

private theorem length_refusals (replies : List Replied) :
    (refusals replies).length = replies.countP fun r => r.reply.isRejected := by
  simp only [refusals, List.length_filterMap_eq_countP, Reply.isSome_refusal?]

theorem InTest.close_errors_ne_nil_iff (h : s.InTest failures) :
    s.close.1.spy.errors ≠ [] ↔ failures = [] ∧ s.unsatisfied 0 ≠ [] := by
  obtain ⟨_, _, herrors, _⟩ := h.close
  rw [herrors]
  by_cases hfailures : failures = []
  · simp [hfailures, shortfall_eq_nil_iff]
  · simp [hfailures]

/-- A closed test holds no failure exactly when it would pass an audit. -/
theorem InTest.close_failures_eq_nil_iff (h : s.InTest failures) :
    s.close.1.spy.errors = [] ∧ s.close.1.spy.fatals = [] ↔ failures = [] ∧ s.unsatisfied 0 = [] := by
  obtain ⟨_, hfatals, _, _⟩ := h.close
  have herror := h.close_errors_ne_nil_iff
  rw [hfatals]
  constructor
  · rintro ⟨hempty, hfailures⟩
    refine ⟨hfailures, Decidable.byContradiction fun hunsatisfied => ?_⟩
    exact herror.mpr ⟨hfailures, hunsatisfied⟩ hempty
  · rintro ⟨hfailures, hall⟩
    refine ⟨Decidable.byContradiction fun hnonempty => ?_, hfailures⟩
    exact (herror.mp hnonempty).2 hall

/-- The only error of a closed test is the report of the unsatisfied expectations. -/
theorem InTest.close_error_eq (h : s.InTest failures) {error : String} (herror : error ∈ s.close.1.spy.errors) :
    error = (auditFailure ((s.unsatisfied 0).map (·.2))).text := by
  obtain ⟨_, _, herrors, _⟩ := h.close
  rw [herrors] at herror
  split at herror
  · exact mem_shortfall herror
  · cases herror

private theorem InTest.length_close_errors_le (h : s.InTest failures) : s.close.1.spy.errors.length ≤ 1 := by
  obtain ⟨_, _, herrors, _⟩ := h.close
  rw [herrors]
  split
  · exact length_shortfall_le s 0
  · simp

/-- Audits of a closed test give one and the same verdict. -/
theorem InTest.audit_of_closed (h : s.InTest failures) (n : Nat) :
    ((s.close.1.run (List.replicate n (.audit 0))).audit 0).2 =
      decide (failures = [] ∧ s.unsatisfied 0 = []) := by
  obtain ⟨_, _, _, hverdict⟩ := h.close
  have hlater : (s.close.1.run (List.replicate n (.audit 0))).verdict? 0 =
      some (decide (failures = [] ∧ s.unsatisfied 0 = [])) := by
    rw [run_audits hverdict n]
    exact hverdict
  rw [audit_of_verdict hlater]

/-- A test with one mock passes exactly when no call was refused and every expectation that the mock still has is
    satisfied. Closing its spy leaves one fatal failure for each refused call, and an error only when there is no
    refused call but an unsatisfied expectation; the error lists these expectations in the order of registration with
    the numbers of calls expected and received. Any further audits repeat the verdict and report nothing. -/
theorem close_gives_the_verdict (keepsStacks : Bool) (acts : List Act)
    (hacts : (start keepsStacks).Along Exercises acts) :
    let s := (start keepsStacks).run acts
    let rejected := ((start keepsStacks).replies acts).countP fun r => r.reply.isRejected
    let closed := s.close.1
    s.close.2 = none ∧
    (closed.spy.errors = [] ∧ closed.spy.fatals = [] ↔
      rejected = 0 ∧ ∀ c ∈ s.expected 0, c.2.satisfied = true) ∧
    closed.spy.fatals.length = rejected ∧
    closed.spy.errors.length ≤ 1 ∧
    (closed.spy.errors ≠ [] ↔ rejected = 0 ∧ ∃ c ∈ s.expected 0, c.2.satisfied = false) ∧
    (∀ error ∈ closed.spy.errors, error = ({
      header := Notice.tooFewCalls
      rows := []
      lines := (s.unsatisfied 0).map fun c =>
        Notice.padRight (Notice.widest ((s.unsatisfied 0).map fun c => c.2.signature)) c.2.signature ++
          "   expected " ++ toString (max c.2.times 1) ++ " " ++ callsWord (max c.2.times 1) ++
          " received " ++ toString c.2.count ++ " " ++ callsWord c.2.count } : Notice).text) ∧
    ((s.unsatisfied 0).map (·.1)).Pairwise (· < ·) ∧
    ∀ n, closed.run (List.replicate n (.audit 0)) =
        { closed with spy := { closed.spy with helpers := closed.spy.helpers + n } } ∧
      (((closed.run (List.replicate n (.audit 0))).audit 0).2 = true ↔
        rejected = 0 ∧ ∀ c ∈ s.expected 0, c.2.satisfied = true) := by
  intro s rejected closed
  have hend : s.InTest (refusals ((start keepsStacks).replies acts)) := (inTest_start keepsStacks).run hacts
  obtain ⟨hhalt, hfatals, _, hverdict⟩ := hend.close
  have hlength : closed.spy.fatals.length = rejected := by
    rw [hfatals, length_refusals]
  have hnone : refusals ((start keepsStacks).replies acts) = [] ↔ rejected = 0 := by
    rw [← hlength, hfatals, List.length_eq_zero_iff]
  have hsound : s.Sound := sound_run (.newMock keepsStacks :: acts)
  refine ⟨hhalt, ?_, hlength, hend.length_close_errors_le, ?_, ?_, unsatisfied_ordered hsound 0, fun n => ?_⟩
  · rw [hend.close_failures_eq_nil_iff, hnone, unsatisfied_eq_nil_iff]
  · rw [hend.close_errors_ne_nil_iff, hnone, ne_eq, unsatisfied_eq_nil_iff]
    simp
  · intro error herror
    rw [hend.close_error_eq herror, auditFailure, List.map_map, List.map_map]
    rfl
  · refine ⟨run_audits hverdict n, ?_⟩
    rw [hend.audit_of_closed n, decide_eq_true_eq, hnone, unsatisfied_eq_nil_iff]

/-- A call that was made, one that was made once too few, and one that is no longer expected. -/
def doorTest : List Act :=
  [.onAny 0 "Open" "door.rs:1", .onAny 0 "Close" "door.rs:2", .configure 1 (.times 2), .onAny 0 "Lock" "door.rs:3",
    .call 0 "Open" [], .call 0 "Close" [], .unset 0 2]

theorem verdict_of_doorTest :
    (start false).Along Exercises (doorTest ++ [.call 0 "Knock" []]) ∧
    ((start false).run doorTest).close.1.spy.errors ≠ [] ∧
    ((start false).run doorTest).close.1.spy.fatals.length = 0 ∧
    ((((start false).run doorTest).close.1.run (List.replicate 2 (.audit 0))).audit 0).2 ≠ true ∧
    ((start false).run (doorTest ++ [.call 0 "Knock" []])).close.1.spy.fatals.length = 1 ∧
    ¬ ((start false).run (doorTest ++ [.call 0 "Knock" []])).close.1.spy.errors ≠ [] := by
  have hexercises : (start false).Along Exercises (doorTest ++ [.call 0 "Knock" []]) :=
    ⟨rfl, rfl, trivial, rfl, rfl, rfl, ⟨rfl, by decide⟩, rfl, trivial⟩
  obtain ⟨_, _, hfatals, _, herrors, _, _, hverdict⟩ :=
    close_gives_the_verdict false doorTest hexercises.append.1
  obtain ⟨_, _, hrefused, _, hsilent, _⟩ :=
    close_gives_the_verdict false (doorTest ++ [.call 0 "Knock" []]) hexercises
  have hshort : ∃ c ∈ ((start false).run doorTest).expected 0, c.2.satisfied = false :=
    ⟨_, .tail _ (.head _), rfl⟩
  refine ⟨hexercises, herrors.mpr ⟨rfl, hshort⟩, hfatals, fun h => ?_, hrefused, fun h => ?_⟩
  · obtain ⟨c, hc, hunsatisfied⟩ := hshort
    have hall := ((hverdict 2).2.mp h).2 c hc
    rw [hunsatisfied] at hall
    cases hall
  · cases (hsilent.mp h).1

end Session

end TraitMock
