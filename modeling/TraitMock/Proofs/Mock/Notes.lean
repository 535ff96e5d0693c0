import TraitMock.Proofs.Arguments.Comparison
import TraitMock.Proofs.Mock.Evolution

namespace TraitMock.Arguments

theorem failures_diff (log log' : MatchLog) (expected actual : Arguments) :
    (diff log' expected actual).1.failures = (diff log expected actual).1.failures := by
  rw [failures_diff_eq, failures_diff_eq]

private theorem isMatch_diff (log log' : MatchLog) (expected actual : Arguments) :
    (diff log' expected actual).1.isMatch = (diff log expected actual).1.isMatch := by
  rw [Diff.isMatch, Diff.isMatch, failures_diff log log']

end TraitMock.Arguments

namespace TraitMock.Selection

/-- A candidate known by another number. -/
def renumber (f : Nat → Nat) (c : Candidate) : Candidate := (f c.1, c.2)

theorem matches_fst (log log' : MatchLog) (e : Expectation) (args : Arguments) :
    (matches_ log' e args).1 = (matches_ log e args).1 := by
  unfold matches_
  split
  · rfl
  · split
    · rfl
    · cases e.comparedWith? with
      | none => rfl
      | some pattern => exact Arguments.isMatch_diff log log' pattern args

theorem failures_diffOf (log log' : MatchLog) (e : Expectation) (args : Arguments) :
    (diffOf log' e args).1.failures = (diffOf log e args).1.failures := by
  unfold diffOf
  cases e.comparedWith? with
  | none => rfl
  | some pattern => exact Arguments.failures_diff log log' pattern args

/-- Whatever notes the matchers keep, the first pass finds the first candidate that matches without any. -/
theorem firstMatch_eq_find? (args : Arguments) (log : MatchLog) (candidates : List Candidate) :
    (firstMatch args log candidates).1 =
      (candidates.find? fun c => (matches_ {} c.2 args).1).map (·.1) := by
  induction candidates generalizing log with
  | nil => rfl
  | cons c rest ih =>
    obtain ⟨id, e⟩ := c
    have hsame := matches_fst {} log e args
    rcases hfirst : matches_ log e args with ⟨verdict, next⟩
    rw [hfirst] at hsame
    cases verdict with
    | true => simp [firstMatch, hfirst, ← hsame]
    | false => simp [firstMatch, hfirst, ← hsame, ih]

private theorem firstMatch_renumber (f : Nat → Nat) (args : Arguments) (log log' : MatchLog) (candidates : List Candidate) :
    (firstMatch args log' (candidates.map (renumber f))).1 = (firstMatch args log candidates).1.map f := by
  simp only [firstMatch_eq_find?, List.find?_map, Option.map_map]
  rfl

private theorem firstProxy_renumber (f : Nat → Nat) (candidates : List Candidate) :
    firstProxy (candidates.map (renumber f)) = (firstProxy candidates).map f := by
  simp only [firstProxy, List.find?_map, Option.map_map]
  rfl

/-- What the header of a failure depends on. -/
def Distance.essence (d : Distance) : Expectation × Nat := (d.expectation, d.diff.failures)

private theorem essence_closest (f : Nat → Nat) (args : Arguments) (log log' : MatchLog) (candidates : List Candidate)
    {best best' : Option Distance} (hbest : best'.map Distance.essence = best.map Distance.essence) :
    (closest args best' log' (candidates.map (renumber f))).1.map Distance.essence =
      (closest args best log candidates).1.map Distance.essence := by
  induction candidates generalizing log log' best best' with
  | nil => exact hbest
  | cons c rest ih =>
    obtain ⟨id, e⟩ := c
    have hfailures := failures_diffOf log log' e args
    rcases hdiff : diffOf log e args with ⟨d, next⟩
    rcases hdiff' : diffOf log' e args with ⟨d', next'⟩
    rw [hdiff, hdiff'] at hfailures
    simp only [List.map_cons, renumber, closest, hdiff, hdiff']
    refine ih next next' ?_
    cases best with
    | none =>
      obtain rfl : best' = none := by simpa using hbest
      simp [Distance.essence, hfailures]
    | some b =>
      obtain ⟨b', rfl, hb⟩ := Option.map_eq_some_iff.mp hbest
      obtain ⟨hexpectation, hcount⟩ := Prod.mk.inj hb
      dsimp only at hfailures hcount ⊢
      rw [hcount, hfailures]
      split
      · simp [Distance.essence, hfailures]
      · simpa using hb

theorem tooManyCalls_header (e : Expectation) (log : MatchLog) :
    (e.tooManyCalls log).header = Notice.tooManyCalls := by
  simp only [Expectation.tooManyCalls, Notice.row]
  split <;> rfl

/-- The header of a failure to select, by the closest expectation and the number of its differences. -/
def failureHeader : Option (Expectation × Nat) → String
  | some (e, failures) => if !e.callable && failures == 0 then Notice.tooManyCalls else Notice.unexpectedCall
  | none => Notice.callNotFound

theorem failure_header (log : MatchLog) (method : String) (args : Arguments) (best : Option Distance) :
    (failure log method args best).header = failureHeader (best.map Distance.essence) := by
  cases best with
  | none => rfl
  | some c =>
    change _ = if !c.expectation.callable && c.diff.isMatch then Notice.tooManyCalls else Notice.unexpectedCall
    unfold failure
    dsimp only
    split
    · exact tooManyCalls_header c.expectation log
    · rfl

theorem mapError_ok {ε ε' α : Type} (f : ε → ε') (a : α) : (Except.ok a).mapError f = .ok a := rfl

theorem mapError_error {ε ε' α : Type} (f : ε → ε') (e : ε) : (Except.error e : Except ε α).mapError f = .error (f e) :=
  rfl

/-- A selection says the same, up to the details of its failure, whatever notes the matchers keep and whatever
    numbers the expectations of the method are known by. -/
theorem select_renumber (f : Nat → Nat) (log log' : MatchLog) {expected expected' : List Candidate}
    {method : String} (args : Arguments)
    (hnamed : expected'.filter (fun c => c.2.method == method) =
      (expected.filter fun c => c.2.method == method).map (renumber f)) :
    (select log' expected' method args).1.mapError (·.header) =
      ((select log expected method args).1.map f).mapError (·.header) := by
  unfold select
  dsimp only
  rw [hnamed]
  generalize expected.filter (fun c => c.2.method == method) = named
  have hmatch := firstMatch_renumber f args log log' named
  rcases hfirst : firstMatch args log named with ⟨picked, next⟩
  rcases hfirst' : firstMatch args log' (named.map (renumber f)) with ⟨picked', next'⟩
  obtain rfl : picked' = picked.map f := by simpa only [hfirst, hfirst'] using hmatch
  cases picked with
  | some id => rfl
  | none =>
    simp only [Option.map_none, firstProxy_renumber]
    cases firstProxy named with
    | some id => rfl
    | none =>
      have hclosest := essence_closest f args next next' named (rfl : (none : Option Distance).map _ = none)
      simp only [Option.map_none, mapError_error, Except.map, failure_header, hclosest]

private theorem renumber_id (candidates : List Candidate) : candidates.map (renumber fun n => n) = candidates :=
  List.map_id candidates

/-- The expectation that a selection picks does not depend on the notes of matchers. -/
theorem select_eq_ok_iff (log log' : MatchLog) (expected : List Candidate) (method : String) (args : Arguments)
    (id : Nat) : (select log' expected method args).1 = .ok id ↔ (select log expected method args).1 = .ok id := by
  have hnamed := (renumber_id (expected.filter fun c => c.2.method == method)).symm
  have hsame := select_renumber (fun n => n) log log' args hnamed
  generalize (select log' expected method args).1 = picked' at hsame ⊢
  generalize (select log expected method args).1 = picked at hsame ⊢
  cases picked' <;> cases picked <;> simp_all [mapError_ok, mapError_error, Except.map]

/-- A selection that fails does not say that prerequisites are not met. -/
theorem header_of_select_error {log : MatchLog} {expected : List Candidate} {method : String} {args : Arguments}
    {n : Notice} (h : (select log expected method args).1 = .error n) : n.header ≠ Notice.prerequisitesNotMet := by
  unfold select at h
  dsimp only at h
  split at h
  · cases h
  · split at h
    · cases h
    · cases h
      rw [failure_header]
      unfold failureHeader
      split
      · split <;> decide
      · decide

end TraitMock.Selection

namespace TraitMock

/-- A function does not look at the notes that matchers keep. -/
def ProxyFunction.IgnoresNotes (f : ProxyFunction) : Prop :=
  ∀ turn log log' args, f.run turn log' args = f.run turn log args

/-- The function that answers the calls of an expectation, if there is one, does not look at notes. -/
def Expectation.IgnoresNotes (e : Expectation) : Prop := ∀ p, e.proxy? = some p → p.function.IgnoresNotes

/-- No function looks at notes that an act makes the proxy of an expectation. -/
def Act.IgnoresNotes : Act → Prop
  | .answerWith _ proxy _ => proxy.function.IgnoresNotes
  | _ => True

namespace Expectation

variable {e e' : Expectation}

/-- Only the function that answers can tell two logs of notes apart. -/
theorem answer_eq_of_run_eq {log log' : MatchLog} (args : Arguments)
    (h : ∀ p, e.proxy? = some p → ∀ values, p.function.run e.count log' values = p.function.run e.count log values) :
    e.answer log' args = e.answer log args := by
  unfold answer
  cases e.panicMessage? with
  | some message => rfl
  | none =>
    cases runHooks e.count args e.hooks with
    | error p => rfl
    | ok args' =>
      cases hproxy : e.proxy? with
      | none => rfl
      | some p => simp only [Proxy.call, h p hproxy]

theorem IgnoresNotes.answer_eq (h : e.IgnoresNotes) (log log' : MatchLog) (args : Arguments) :
    e.answer log' args = e.answer log args :=
  answer_eq_of_run_eq args fun p hp values => h p hp e.count log log' values

private theorem proxy?_of_apply {setting : Setting} (h : e.apply setting = .ok e') : e'.proxy? = e.proxy? := by
  cases setUp_of_apply h <;> rfl

private theorem ignoresNotes_of_proxy?_eq (hproxy : e'.proxy? = e.proxy?) (h : e.IgnoresNotes) : e'.IgnoresNotes := by
  intro p hp
  exact h p (hproxy ▸ hp)

private theorem ignoresNotes_of_registered? {a : Act} (ha : a.IgnoresNotes) (h : a.registered? = some e) :
    e.IgnoresNotes := by
  intro p hp
  cases a.registers_of_registered? h with
  | on | onAny => cases hp
  | answerWith m location hname =>
    cases hp
    exact ha

end Expectation

namespace Session

variable {s t : Session} {a : Act}

/-- No expectation has a proxy that looks at notes. -/
def IgnoresNotes (s : Session) : Prop := ∀ id e, s.expectation? id = some e → e.IgnoresNotes

theorem ignoresNotes_empty : IgnoresNotes {} := by
  intro id e he
  simp [expectation?] at he

theorem IgnoresNotes.after (h : s.IgnoresNotes) (ha : a.IgnoresNotes) : (s.after a).IgnoresNotes :=
  (change s a).forall_expectation h (fun _ => Expectation.ignoresNotes_of_registered? ha)
    (fun happly => Expectation.ignoresNotes_of_proxy?_eq (Expectation.proxy?_of_apply happly)) fun hold => hold

end Session

end TraitMock
