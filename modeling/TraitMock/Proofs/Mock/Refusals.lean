import TraitMock.Proofs.Mock.Notes

namespace TraitMock

/-- A mock apart from its failure and from the verdict of its audit. -/
def Mock.unjudged (mock : Mock) : Mock := { mock with failed := false, audited? := none }

namespace Session

variable {s t u : Session} {m : Nat} {a : Act}

/-- Two sessions have the same expectations, and mocks that differ in failures and verdicts only. -/
structure Alike (s t : Session) : Prop where
  expectations : t.expectations = s.expectations
  mocks : t.mocks.map Mock.unjudged = s.mocks.map Mock.unjudged

theorem Alike.refl (s : Session) : Alike s s := ⟨rfl, rfl⟩

theorem Alike.symm (h : Alike s t) : Alike t s := ⟨h.expectations.symm, h.mocks.symm⟩

theorem Alike.trans (h : Alike s t) (h' : Alike t u) : Alike s u :=
  ⟨h'.expectations.trans h.expectations, h'.mocks.trans h.mocks⟩

theorem Alike.expectation? (h : Alike s t) (id : Nat) : t.expectation? id = s.expectation? id := by
  rw [Session.expectation?, h.expectations]
  rfl

/-- A mock is in neither of two sessions or in both. -/
theorem Alike.mock?_cases (h : Alike s t) (m : Nat) :
    (s.mock? m = none ∧ t.mock? m = none) ∨
      ∃ old new, s.mock? m = some old ∧ t.mock? m = some new ∧ new.unjudged = old.unjudged := by
  have hget : (t.mocks.map Mock.unjudged)[m]? = (s.mocks.map Mock.unjudged)[m]? := by rw [h.mocks]
  rw [List.getElem?_map, List.getElem?_map] at hget
  cases hs : s.mock? m with
  | none =>
    rw [show s.mocks[m]? = none from hs] at hget
    have hnone : t.mock? m = none := Option.map_eq_none_iff.mp hget
    exact .inl ⟨rfl, hnone⟩
  | some old =>
    rw [show s.mocks[m]? = some old from hs] at hget
    obtain ⟨new, ht, hsame⟩ := Option.map_eq_some_iff.mp hget
    exact .inr ⟨old, new, rfl, ht, hsame⟩

theorem Alike.putMock (h : Alike s t) {old new : Mock} (hsame : new.unjudged = old.unjudged) :
    Alike (s.putMock m old) (t.putMock m new) := by
  refine ⟨h.expectations, ?_⟩
  simp only [Session.putMock, List.map_set, h.mocks, hsame]

theorem Alike.putExpectation (h : Alike s t) (id : Nat) (e : Expectation) :
    Alike (s.putExpectation id e) (t.putExpectation id e) := by
  refine ⟨?_, h.mocks⟩
  simp only [Session.putExpectation, h.expectations]

/-- Giving a mock a failure or a verdict changes nothing else. -/
theorem alike_putMock {old new : Mock} (hmock : s.mock? m = some old) (hsame : new.unjudged = old.unjudged) :
    Alike s (s.putMock m new) := by
  refine ⟨rfl, ?_⟩
  obtain ⟨hlt, hget⟩ := List.getElem?_eq_some_iff.mp hmock
  have hself : s.mocks.set m old = s.mocks := by
    rw [← hget]
    exact List.set_getElem_self hlt
  calc (s.mocks.set m new).map Mock.unjudged = (s.mocks.map Mock.unjudged).set m old.unjudged := by
        rw [List.map_set, hsame]
    _ = (s.mocks.set m old).map Mock.unjudged := List.map_set.symm
    _ = s.mocks.map Mock.unjudged := by rw [hself]

private theorem alike_reject (n : Notice) : Alike s (s.reject m n) := by
  unfold reject
  cases hmock : s.mock? m with
  | none => exact ⟨rfl, rfl⟩
  | some mock =>
    have hput : Alike s (s.putMock m { mock with failed := true }) := alike_putMock hmock rfl
    exact ⟨hput.expectations, hput.mocks⟩

theorem alike_audit : Alike s (s.audit m).1 := by
  unfold audit
  cases hmock : s.helper.mock? m with
  | none =>
    simp only [hmock]
    exact ⟨rfl, rfl⟩
  | some mock =>
    have hput : ∀ new : Mock, new.unjudged = mock.unjudged → Alike s (s.helper.putMock m new) :=
      fun new hsame => (show Alike s s.helper from ⟨rfl, rfl⟩).trans (alike_putMock hmock hsame)
    simp only [hmock]
    split
    · exact ⟨rfl, rfl⟩
    · split
      · exact hput _ rfl
      · split
        · exact hput _ rfl
        · have hfailed := hput { mock with failed := true, audited? := some false } rfl
          exact ⟨hfailed.expectations, hfailed.mocks⟩

theorem alike_assertCallCount (method : String) (want : Nat) : Alike s (s.assertCallCount m method want).1 := by
  unfold assertCallCount
  dsimp only
  split <;> exact ⟨rfl, rfl⟩

/-- A refused call leaves a session as it was, apart from the failure. -/
theorem alike_of_rejected {method : String} {args : Arguments}
    (h : (s.call m method args).2.isRejected = true) : Alike s (s.call m method args).1 := by
  rcases call_cases s m method args with ⟨n, hcall⟩ | ⟨id, e, hpicks, hmet⟩
  · rw [hcall]
    have hstart : Alike s { s.helper with log := s.selectionLog m method args } := ⟨rfl, rfl⟩
    exact hstart.trans (alike_reject n)
  · obtain ⟨reply, hanswered, hcall⟩ := hpicks.call_of_met hmet
    rw [hcall, hanswered] at h
    cases h

theorem Alike.expected (h : Alike s t) (m : Nat) : t.expected m = s.expected m := by
  unfold Session.expected
  rcases h.mock?_cases m with ⟨hs, ht⟩ | ⟨old, new, hs, ht, hsame⟩
  · rw [hs, ht]
  · have hexpected : new.expected = old.expected := congrArg (·.expected) hsame
    simp only [hs, ht, hexpected, h.expectation?]

theorem Alike.calls (h : Alike s t) (m : Nat) : t.calls m = s.calls m := by
  unfold Session.calls
  rcases h.mock?_cases m with ⟨hs, ht⟩ | ⟨old, new, hs, ht, hsame⟩
  · rw [hs, ht]
  · rw [hs, ht]
    exact congrArg (·.calls) hsame

theorem Alike.data? (h : Alike s t) (m : Nat) (key : String) : t.data? m key = s.data? m key := by
  unfold Session.data?
  rcases h.mock?_cases m with ⟨hs, ht⟩ | ⟨old, new, hs, ht, hsame⟩
  · rw [hs, ht]
  · have hdata : new.data = old.data := congrArg (·.data) hsame
    simp only [hs, ht, hdata, bind, Option.bind]

theorem Alike.unmet (h : Alike s t) (e : Expectation) : t.unmet e = s.unmet e := by
  have hget : t.expectation? = s.expectation? := funext h.expectation?
  simp only [Session.unmet, hget]

/-- A call picks the same expectation in both of two sessions. -/
theorem Alike.picks (h : Alike s t) {id : Nat} {method : String} {args : Arguments} {e : Expectation}
    (hpicks : s.Picks m method args id e) : t.Picks m method args id e := by
  have hselected : (Selection.select t.log (t.expected m) method args).1 = .ok id := by
    rw [h.expected m, Selection.select_eq_ok_iff s.log t.log]
    exact hpicks.selected
  obtain ⟨e', hpicks'⟩ := picks_of_select hselected
  have hfound : t.expectation? id = some e := (h.expectation? id).trans hpicks.found
  obtain rfl : e' = e := Option.some.inj (hpicks'.found.symm.trans hfound)
  exact hpicks'

theorem Alike.register (h : Alike s t) (e : Expectation) : Alike (s.register e).1 (t.register e).1 := by
  have hadded : Alike { s with expectations := s.expectations ++ [e] }
      { t with expectations := t.expectations ++ [e] } :=
    ⟨by rw [h.expectations], h.mocks⟩
  unfold Session.register
  dsimp only
  rcases hadded.mock?_cases e.owner with ⟨hs, ht⟩ | ⟨old, new, hs, ht, hsame⟩
  · rw [hs, ht]
    exact hadded
  · rw [hs, ht]
    have hexpected : new.expected = old.expected := congrArg (·.expected) hsame
    refine hadded.putMock ?_
    simp only [Mock.unjudged, Mock.mk.injEq] at hsame ⊢
    simp [hsame, h.expectations]

theorem Alike.record (h : Alike s t) (method : String) (args : Arguments) :
    Alike (s.record m method args) (t.record m method args) := by
  unfold Session.record
  rcases h.mock?_cases m with ⟨hs, ht⟩ | ⟨old, new, hs, ht, hsame⟩
  · rw [hs, ht]
    exact h
  · rw [hs, ht]
    refine h.putMock ?_
    simp only [Mock.unjudged, Mock.mk.injEq] at hsame ⊢
    simp [hsame]

theorem Alike.setData (h : Alike s t) (key : String) (v : Value) :
    Alike (s.setData m key v) (t.setData m key v) := by
  unfold Session.setData
  rcases h.mock?_cases m with ⟨hs, ht⟩ | ⟨old, new, hs, ht, hsame⟩
  · rw [hs, ht]
    exact h
  · rw [hs, ht]
    refine h.putMock ?_
    simp only [Mock.unjudged, Mock.mk.injEq] at hsame ⊢
    simp [hsame]

theorem Alike.unset (h : Alike s t) (id : Nat) : Alike (s.unset m id) (t.unset m id) := by
  have hhelper : Alike s.helper t.helper := ⟨h.expectations, h.mocks⟩
  unfold Session.unset
  dsimp only
  rw [hhelper.expectation? id]
  rcases hhelper.mock?_cases m with ⟨hs, ht⟩ | ⟨old, new, hs, ht, hsame⟩
  · rw [hs, ht]
    exact hhelper
  · rw [hs, ht]
    have hexpected : new.expected = old.expected := congrArg (·.expected) hsame
    cases s.helper.expectation? id with
    | none => exact hhelper
    | some e =>
      dsimp only
      rw [hexpected]
      split
      · refine hhelper.putMock ?_
        simp only [Mock.unjudged, Mock.mk.injEq] at hsame ⊢
        simp [hsame]
      · exact ⟨h.expectations, h.mocks⟩

theorem Alike.configure (h : Alike s t) (id : Nat) (setting : Setting) :
    Alike (s.after (.configure id setting)) (t.after (.configure id setting)) := by
  have hknown : t.known setting = s.known setting := by
    cases setting with
    | requires expectations => simp only [known, h.expectations]
    | _ => rfl
  cases hfound : s.expectation? id with
  | none =>
    have hfound' := (h.expectation? id).trans hfound
    simpa [Session.after, Session.configure, hfound, hfound'] using h
  | some e =>
    have hfound' := (h.expectation? id).trans hfound
    cases happly : e.apply (s.known setting) with
    | error u => simpa [Session.after, Session.configure, hfound, hfound', hknown, happly] using h
    | ok e' =>
      simpa [Session.after, Session.configure, hfound, hfound', hknown, happly] using h.putExpectation id e'

/-- A call that is answered in one of two sessions is answered in the other one, in the same way. -/
theorem Alike.call (h : Alike s t) (hs : s.IgnoresNotes) {method : String} {args : Arguments}
    (hanswered : (s.call m method args).2.isRejected = false) :
    Alike (s.call m method args).1 (t.call m method args).1 ∧
      (t.call m method args).2 = (s.call m method args).2 := by
  rcases call_cases s m method args with ⟨n, hcall⟩ | ⟨id, e, hpicks, hmet⟩
  · rw [hcall] at hanswered
    cases hanswered
  · have hmet' : t.unmet e = [] := (h.unmet e).trans hmet
    have hanswer := (hs id e hpicks.found).answer_eq (s.selectionLog m method args) (t.selectionLog m method args) args
    rw [hpicks.call_eq hmet, (h.picks hpicks).call_eq hmet', hanswer]
    have hstart : Alike { s.helper with log := s.selectionLog m method args }
        { t.helper with log := t.selectionLog m method args } := ⟨h.expectations, h.mocks⟩
    exact ⟨(hstart.record method args).putExpectation id e.counted, rfl⟩

/-- Whether an act is more than a query or a call that is refused. -/
def isEssential (s : Session) : Act → Bool
  | .callable .. => false
  | .call m method args => !(s.call m method args).2.isRejected
  | _ => true

/-- A run without the queries and the calls that are refused. -/
def essential (s : Session) : List Act → List Act
  | [] => []
  | a :: rest => if s.isEssential a then a :: (s.after a).essential rest else (s.after a).essential rest

private theorem alike_of_not_isEssential (h : s.isEssential a = false) : Alike s (s.after a) := by
  cases a with
  | callable m method args => exact ⟨rfl, rfl⟩
  | call m method args =>
    have hrejected : (s.call m method args).2.isRejected = true := by simpa [isEssential] using h
    exact alike_of_rejected hrejected
  | _ => cases h

/-- What else is done is done in the same way in both of two sessions. -/
theorem Alike.after (h : Alike s t) (hs : s.IgnoresNotes) (ha : s.isEssential a = true) :
    Alike (s.after a) (t.after a) ∧ t.replied a = s.replied a := by
  have hregistration : ∀ b : Act, b.isRegistration = true → Alike (s.after b) (t.after b) := by
    intro b hb
    cases hregistered : b.registered? with
    | none => rwa [after_of_registered?_eq_none s hb hregistered, after_of_registered?_eq_none t hb hregistered]
    | some e =>
      rw [after_of_registered? s hregistered, after_of_registered? t hregistered]
      exact h.register e
  cases a with
  | newMock keepsStacks =>
    refine ⟨⟨h.expectations, ?_⟩, rfl⟩
    simp only [Session.after, newMock, List.map_append, h.mocks]
  | on m method pattern location => exact ⟨hregistration _ rfl, rfl⟩
  | onAny m method location => exact ⟨hregistration _ rfl, rfl⟩
  | answerWith m proxy location => exact ⟨hregistration _ rfl, rfl⟩
  | configure id setting => exact ⟨h.configure id setting, rfl⟩
  | unset m id => exact ⟨h.unset id, rfl⟩
  | call m method args =>
    have hanswered : (s.call m method args).2.isRejected = false := by simpa [isEssential] using ha
    obtain ⟨hafter, hreply⟩ := h.call hs hanswered
    refine ⟨hafter, ?_⟩
    rw [replied, hreply]
    rfl
  | callable m method args => cases ha
  | setData m key v => exact ⟨h.setData key v, rfl⟩
  | audit m => exact ⟨(alike_audit.symm.trans h).trans alike_audit, rfl⟩
  | assertCallCount m method want =>
    exact ⟨((alike_assertCallCount method want).symm.trans h).trans (alike_assertCallCount method want), rfl⟩

/-- The replies that are no refusals. -/
def answers (replies : List Replied) : List Replied := replies.filter fun r => !r.reply.isRejected

private theorem answers_append (xs ys : List Replied) : answers (xs ++ ys) = answers xs ++ answers ys :=
  List.filter_append xs ys

private theorem answers_replied_of_isEssential (h : s.isEssential a = true) : answers (s.replied a) = s.replied a := by
  cases a with
  | call m method args =>
    have hanswered : (s.call m method args).2.isRejected = false := by simpa [isEssential] using h
    simp [answers, replied, hanswered]
  | _ => rfl

private theorem answers_replied_of_not_isEssential (h : s.isEssential a = false) : answers (s.replied a) = [] := by
  cases a with
  | call m method args =>
    have hrejected : (s.call m method args).2.isRejected = true := by simpa [isEssential] using h
    simp [answers, replied, hrejected]
  | _ => rfl

private theorem Alike.run_essential (h : Alike s t) (hs : s.IgnoresNotes) {acts : List Act}
    (hacts : ∀ a ∈ acts, a.IgnoresNotes) :
    Alike (s.run acts) (t.run (s.essential acts)) ∧ t.replies (s.essential acts) = answers (s.replies acts) := by
  induction acts generalizing s t with
  | nil => exact ⟨h, rfl⟩
  | cons a acts ih =>
    have hlater : ∀ b ∈ acts, b.IgnoresNotes := fun b hb => hacts b (List.mem_cons_of_mem a hb)
    have hnext : (s.after a).IgnoresNotes := hs.after (hacts a List.mem_cons_self)
    rw [run_cons, replies, answers_append]
    cases hessential : s.isEssential a with
    | true =>
      obtain ⟨hafter, hreplied⟩ := h.after hs hessential
      obtain ⟨hend, hreplies⟩ := ih hafter hnext hlater
      rw [essential, if_pos hessential, run_cons, replies, hreplied, hreplies,
        answers_replied_of_isEssential hessential]
      exact ⟨hend, rfl⟩
    | false =>
      have hafter : Alike (s.after a) t := (alike_of_not_isEssential hessential).symm.trans h
      obtain ⟨hend, hreplies⟩ := ih hafter hnext hlater
      rw [essential, if_neg (by simp [hessential]), hreplies, answers_replied_of_not_isEssential hessential]
      exact ⟨hend, rfl⟩

/-- A query finds an expectation exactly when a call would be answered, or refused for its prerequisites only. -/
theorem callable_eq_ok_iff (s : Session) (m : Nat) (method : String) (args : Arguments) :
    (s.callable m method args).2 = .ok () ↔
      (s.call m method args).2.isRejected = false ∨
        ∃ n, (s.call m method args).2 = .rejected n ∧ n.header = Notice.prerequisitesNotMet := by
  have hquery : (s.callable m method args).2 =
      (Selection.select s.log (s.expected m) method args).1.map fun _ => () := rfl
  rw [hquery]
  cases hselect : (Selection.select s.log (s.expected m) method args).1 with
  | error n =>
    have hheader := Selection.header_of_select_error hselect
    rw [call_of_select_error hselect]
    simp [Except.map, Reply.isRejected, hheader]
  | ok id =>
    obtain ⟨e, hpicks⟩ := picks_of_select hselect
    refine iff_of_true rfl ?_
    by_cases hmet : s.unmet e = []
    · obtain ⟨reply, hanswered, hcall⟩ := hpicks.call_of_met hmet
      left
      rw [hcall, hanswered]
    · right
      rw [hpicks.call_of_unmet hmet]
      exact ⟨_, rfl, prerequisiteFailure_header m e _⟩

/-- A run without its queries and its refused calls answers the calls that are left in the same way, and ends with
    the same recorded calls, expectations, counts and data: the two sessions differ in failures and verdicts only.
    A query is right in every session about what a call would do. -/
theorem refusals_and_queries_leave_no_trace (acts : List Act) (hacts : ∀ a ∈ acts, a.IgnoresNotes) :
    replies {} (essential {} acts) = answers (replies {} acts) ∧
    (∀ m, (run {} (essential {} acts)).calls m = (run {} acts).calls m ∧
      (run {} (essential {} acts)).expected m = (run {} acts).expected m ∧
      ∀ key, (run {} (essential {} acts)).data? m key = (run {} acts).data? m key) ∧
    (∀ id, (run {} (essential {} acts)).expectation? id = (run {} acts).expectation? id) ∧
    (run {} (essential {} acts)).mocks.map Mock.unjudged = (run {} acts).mocks.map Mock.unjudged ∧
    ∀ (s : Session) m method args, (s.callable m method args).2 = .ok () ↔
      (s.call m method args).2.isRejected = false ∨
        ∃ n, (s.call m method args).2 = .rejected n ∧ n.header = Notice.prerequisitesNotMet := by
  obtain ⟨hend, hreplies⟩ := (Alike.refl {}).run_essential ignoresNotes_empty hacts
  refine ⟨hreplies, fun m => ?_, hend.expectation?, hend.mocks, callable_eq_ok_iff⟩
  exact ⟨hend.calls m, hend.expected m, hend.data? m⟩

/-- Five calls, of which the first has a prerequisite that is not met yet, the third is unexpected and the fifth is
    one too many. -/
def doorWithRefusals : List Act :=
  [.newMock false, .onAny 0 "Open" "door.rs:1", .onAny 0 "Close" "door.rs:2", .configure 1 (.requires [0]),
    .configure 1 (.times 1), .callable 0 "Close" [], .call 0 "Close" [], .call 0 "Open" [], .call 0 "Lock" [],
    .call 0 "Close" [], .call 0 "Close" []]

theorem refusals_of_doorWithRefusals :
    essential {} doorWithRefusals =
      [.newMock false, .onAny 0 "Open" "door.rs:1", .onAny 0 "Close" "door.rs:2", .configure 1 (.requires [0]),
        .configure 1 (.times 1), .call 0 "Open" [], .call 0 "Close" []] ∧
    replies {} (essential {} doorWithRefusals) =
      [⟨0, "Open", [], .returned []⟩, ⟨0, "Close", [], .returned []⟩] ∧
    (run {} (essential {} doorWithRefusals)).calls 0 = (run {} doorWithRefusals).calls 0 := by
  have hacts : ∀ a ∈ doorWithRefusals, a.IgnoresNotes := by
    simp [doorWithRefusals, Act.IgnoresNotes]
  obtain ⟨hreplies, hends, _⟩ := refusals_and_queries_leave_no_trace doorWithRefusals hacts
  exact ⟨rfl, hreplies.trans rfl, (hends 0).1⟩

end Session

end TraitMock
