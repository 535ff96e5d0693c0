import TraitMock.Proofs.Mock.Run

namespace TraitMock.Selection

private theorem firstMatch_eq_some {args : Arguments} {log log' : MatchLog} {candidates : List Candidate} {id : Nat}
    (h : firstMatch args log candidates = (some id, log')) :
    ∃ e, (id, e) ∈ candidates ∧ e.callable = true := by
  induction candidates generalizing log with
  | nil => simp [firstMatch] at h
  | cons c rest ih =>
    obtain ⟨first, e⟩ := c
    simp only [firstMatch] at h
    split at h
    · rename_i hmatch
      simp only [Prod.mk.injEq, Option.some.injEq] at h
      obtain ⟨rfl, rfl⟩ := h
      cases hcallable : e.callable with
      | true => exact ⟨e, List.mem_cons_self, hcallable⟩
      | false => simp [matches_, hcallable] at hmatch
    · obtain ⟨e', hmem, hcallable⟩ := ih h
      exact ⟨e', List.mem_cons_of_mem _ hmem, hcallable⟩

private theorem firstProxy_eq_some {candidates : List Candidate} {id : Nat} (h : firstProxy candidates = some id) :
    ∃ e, (id, e) ∈ candidates ∧ e.callable = true := by
  unfold firstProxy at h
  obtain ⟨c, hfind, rfl⟩ := Option.map_eq_some_iff.mp h
  have hmem := List.mem_of_find?_eq_some hfind
  have hcallable := List.find?_some hfind
  simp only [Bool.and_eq_true] at hcallable
  exact ⟨c.2, hmem, hcallable.2⟩

/-- The expectation selected is one of those given, of the method called, and may be called once more. -/
theorem select_eq_ok {log log' : MatchLog} {expected : List Candidate} {method : String} {args : Arguments}
    {id : Nat} (h : select log expected method args = (.ok id, log')) :
    ∃ e, (id, e) ∈ expected ∧ e.method = method ∧ e.callable = true := by
  have hpicked : ∃ e, (id, e) ∈ expected.filter (fun c => c.2.method == method) ∧ e.callable = true := by
    unfold select at h
    dsimp only at h
    split at h
    · rename_i hmatch
      simp only [Prod.mk.injEq, Except.ok.injEq] at h
      obtain ⟨rfl, rfl⟩ := h
      exact firstMatch_eq_some hmatch
    · split at h
      · rename_i hproxy
        simp only [Prod.mk.injEq, Except.ok.injEq] at h
        obtain ⟨rfl, rfl⟩ := h
        exact firstProxy_eq_some hproxy
      · simp at h
  obtain ⟨e, hmem, hcallable⟩ := hpicked
  obtain ⟨hmem, hmethod⟩ := List.mem_filter.mp hmem
  exact ⟨e, hmem, by simpa using hmethod, hcallable⟩

end TraitMock.Selection

namespace TraitMock

/-- The reply that an answer makes. -/
def Reply.ofAnswer : Except PanicPayload Arguments → Reply
  | .ok values => .returned values
  | .error p => .panicked p

theorem Reply.isRejected_ofAnswer (answer : Except PanicPayload Arguments) :
    (Reply.ofAnswer answer).isRejected = false := by
  cases answer <;> rfl

end TraitMock

namespace TraitMock.Session

/-- The numbers of the expectations that a mock has, in the order of registration. -/
def registered (s : Session) (m : Nat) : List Nat := ((s.mock? m).map (·.expected)).getD []

theorem expected_eq (s : Session) (m : Nat) :
    s.expected m = (s.registered m).filterMap fun id => (s.expectation? id).map (id, ·) := by
  unfold expected registered
  cases s.mock? m <;> rfl

theorem mem_expected {s : Session} {m id : Nat} {e : Expectation} :
    (id, e) ∈ s.expected m ↔ id ∈ s.registered m ∧ s.expectation? id = some e := by
  unfold expected registered
  cases s.mock? m with
  | none => simp
  | some mock => simp [List.mem_filterMap]

/-- No prerequisite of an expectation is unmet exactly when all of them are satisfied. -/
theorem unmet_eq_nil_iff {s : Session} {e : Expectation} :
    s.unmet e = [] ↔ ∀ r ∈ e.requires, ∀ q, s.expectation? r = some q → q.satisfied = true := by
  simp only [unmet, List.filter_eq_nil_iff, List.mem_filterMap, Bool.not_eq_true, Bool.not_eq_false']
  constructor
  · intro h r hr q hq
    exact h q ⟨r, hr, hq⟩
  · rintro h q ⟨r, hr, hq⟩
    exact h r hr q hq

/-- A call of a method of mock `m` picks the expectation `e` with the number `id`, whether or not its
    prerequisites are satisfied. -/
structure Picks (s : Session) (m : Nat) (method : String) (args : Arguments) (id : Nat) (e : Expectation) :
    Prop where
  selected : (Selection.select s.log (s.expected m) method args).1 = .ok id
  registered : id ∈ s.registered m
  found : s.expectation? id = some e
  method_eq : e.method = method
  callable : e.callable = true

theorem picks_of_select {s : Session} {m id : Nat} {method : String} {args : Arguments}
    (h : (Selection.select s.log (s.expected m) method args).1 = .ok id) : ∃ e, s.Picks m method args id e := by
  obtain ⟨e, hmem, hmethod, hcallable⟩ := Selection.select_eq_ok (Prod.ext h rfl)
  obtain ⟨hid, he⟩ := mem_expected.mp hmem
  exact ⟨e, h, hid, he, hmethod, hcallable⟩

/-- The log after a selection. -/
def selectionLog (s : Session) (m : Nat) (method : String) (args : Arguments) : MatchLog :=
  (Selection.select s.log (s.expected m) method args).2

/-- A call for which no expectation is selected is refused with the notice of the selection. -/
theorem call_of_select_error {s : Session} {m : Nat} {method : String} {args : Arguments} {n : Notice}
    (h : (Selection.select s.log (s.expected m) method args).1 = .error n) :
    s.call m method args =
      ({ s.helper with log := s.selectionLog m method args }.reject m n, .rejected n) := by
  have hselect : Selection.select s.helper.log (s.helper.expected m) method args =
      (.error n, s.selectionLog m method args) := Prod.ext h rfl
  simp only [call, choose, hselect]

theorem prerequisiteFailure_header (m : Nat) (e : Expectation) (unmet : List Expectation) :
    (prerequisiteFailure m e unmet).header = Notice.prerequisitesNotMet := by
  have hfold : ∀ (rest : List Expectation) (n : Notice),
      (rest.foldl (fun n r =>
        let owner := if r.owner = m then "the same mock" else "a different mock"
        (n.row "requires" (r.signature ++ " (" ++ owner ++ ")")).row "created at" r.location) n).header =
        n.header := by
    intro rest
    induction rest with
    | nil => exact fun _ => rfl
    | cons r rest ih => exact fun n => ih _
  exact hfold unmet _

/-- A call that picks an expectation with unmet prerequisites is refused with a notice that names them. -/
theorem Picks.call_of_unmet {s : Session} {m id : Nat} {method : String} {args : Arguments} {e : Expectation}
    (h : s.Picks m method args id e) (hunmet : s.unmet e ≠ []) :
    s.call m method args =
      ({ s.helper with log := s.selectionLog m method args }.reject m (prerequisiteFailure m e (s.unmet e)),
        .rejected (prerequisiteFailure m e (s.unmet e))) := by
  have hselect : Selection.select s.helper.log (s.helper.expected m) method args =
      (.ok id, s.selectionLog m method args) := Prod.ext h.selected rfl
  have hfound : s.helper.expectation? id = some e := h.found
  obtain ⟨r, rest, hcons⟩ := List.exists_cons_of_ne_nil hunmet
  have hhelper : s.helper.unmet e = r :: rest := hcons
  simp only [call, choose, hselect, hfound, hhelper, hcons]

/-- A call that picks an expectation whose prerequisites are satisfied is recorded and counted, and replied to by
    the answer of that expectation. -/
theorem Picks.call_eq {s : Session} {m id : Nat} {method : String} {args : Arguments} {e : Expectation}
    (h : s.Picks m method args id e) (hmet : s.unmet e = []) :
    s.call m method args =
      (({ s.helper with log := s.selectionLog m method args }.record m method args).putExpectation id e.counted,
        .ofAnswer (e.answer (s.selectionLog m method args) args)) := by
  have hselect : Selection.select s.helper.log (s.helper.expected m) method args =
      (.ok id, s.selectionLog m method args) := Prod.ext h.selected rfl
  have hfound : s.helper.expectation? id = some e := h.found
  have hhelper : s.helper.unmet e = [] := hmet
  have hrecorded : (({ s.helper with log := s.selectionLog m method args }.record m method args).expectation? id) =
      some e := by
    unfold record
    split <;> exact h.found
  simp only [call, choose, hselect, hfound, hhelper, hrecorded]
  cases e.answer (s.selectionLog m method args) args with
  | ok values => rfl
  | error p => rfl

/-- A call that picks an expectation whose prerequisites are satisfied is not refused, however it ends. -/
theorem Picks.call_of_met {s : Session} {m id : Nat} {method : String} {args : Arguments} {e : Expectation}
    (h : s.Picks m method args id e) (hmet : s.unmet e = []) :
    ∃ reply, reply.isRejected = false ∧
      s.call m method args =
        (({ s.helper with log := s.selectionLog m method args }.record m method args).putExpectation id e.counted,
          reply) :=
  ⟨_, Reply.isRejected_ofAnswer _, h.call_eq hmet⟩

/-- A call is either refused, or picks an expectation whose prerequisites are satisfied. -/
theorem call_cases (s : Session) (m : Nat) (method : String) (args : Arguments) :
    (∃ n, s.call m method args =
      ({ s.helper with log := s.selectionLog m method args }.reject m n, .rejected n)) ∨
    ∃ id e, s.Picks m method args id e ∧ s.unmet e = [] := by
  cases hselect : (Selection.select s.log (s.expected m) method args).1 with
  | error n => exact .inl ⟨n, call_of_select_error hselect⟩
  | ok id =>
    obtain ⟨e, hpicks⟩ := picks_of_select hselect
    by_cases hmet : s.unmet e = []
    · exact .inr ⟨id, e, hpicks, hmet⟩
    · exact .inl ⟨_, hpicks.call_of_unmet hmet⟩

end TraitMock.Session
