import TraitMock.Proofs.Mock.Coherence
import TraitMock.Proofs.Mock.Notes

namespace TraitMock.Expectation

/-- How many positions of the expected arguments fail; without expected arguments none does. -/
def mismatches (e : Expectation) (args : Arguments) : Nat :=
  match e.pattern? with
  | some pattern => (Arguments.diff {} pattern args).1.failures
  | none => 0

/-- The expectation may be called, and takes any arguments without a proxy or has a pattern in which nothing fails. -/
def Answers (e : Expectation) (args : Arguments) : Prop :=
  e.callable = true ∧
    (e.anyArguments = true ∧ e.proxy? = none ∨
      ∃ pattern, e.pattern? = some pattern ∧ (Arguments.diff {} pattern args).1.isMatch = true)

/-- The expectation is a proxy without a pattern that may be called. -/
def Delegates (e : Expectation) : Prop := e.callable = true ∧ e.proxy?.isSome = true ∧ e.pattern? = none

/-- The expectation is one that some test has set up, and may have called since. -/
def Registered (e : Expectation) : Prop := ∃ acts id, (Session.run {} acts).expectation? id = some e

variable {e : Expectation} {args : Arguments}

theorem Registered.coherent (h : e.Registered) : e.Coherent := by
  obtain ⟨acts, id, he⟩ := h
  exact Session.run_keeps acts Session.coherent_empty (fun s a hs => hs.after a) id e he

theorem Coherent.comparedWith?_eq (h : e.Coherent) : e.comparedWith? = e.pattern? := by
  unfold comparedWith?
  split
  · rename_i hany
    exact (h.any_pattern hany).1.symm
  · rfl

/-- An expectation without mismatches that may be called answers or delegates. -/
theorem Coherent.answers_or_delegates (h : e.Coherent) (hcallable : e.callable = true)
    (hmatch : e.mismatches args = 0) : e.Answers args ∨ e.Delegates := by
  cases hpattern : e.pattern? with
  | some pattern =>
    rw [mismatches, hpattern] at hmatch
    exact .inl ⟨hcallable, .inr ⟨pattern, hpattern, beq_iff_eq.mpr hmatch⟩⟩
  | none =>
    rcases h.no_pattern hpattern with hany | hproxy
    · exact .inl ⟨hcallable, .inl ⟨hany, (h.any_pattern hany).2⟩⟩
    · exact .inr ⟨hcallable, hproxy, hpattern⟩

end TraitMock.Expectation

namespace TraitMock.Selection

variable {args : Arguments} {log : MatchLog} {candidates : List Candidate}

/-- The expectations of one method, in the order of registration. -/
def ofMethod (expected : List Candidate) (method : String) : List Candidate :=
  expected.filter fun c => c.2.method == method

/-- The first of several candidates whose expectation has a property. -/
def IsFirst (P : Expectation → Prop) (candidates : List Candidate) (c : Candidate) : Prop :=
  ∃ before after, candidates = before ++ c :: after ∧ P c.2 ∧ ∀ b ∈ before, ¬P b.2

theorem find?_eq_some_iff_isFirst {P : Expectation → Prop} {p : Expectation → Bool}
    (hp : ∀ c ∈ candidates, p c.2 = true ↔ P c.2) (c : Candidate) :
    candidates.find? (fun c => p c.2) = some c ↔ IsFirst P candidates c := by
  rw [List.find?_eq_some_iff_append]
  constructor
  · rintro ⟨hc, before, after, rfl, hbefore⟩
    refine ⟨before, after, rfl, (hp c (by simp)).mp hc, fun b hb hP => ?_⟩
    have hfalse := hbefore b hb
    rw [(hp b (by simp [hb])).mpr hP] at hfalse
    cases hfalse
  · rintro ⟨before, after, rfl, hc, hbefore⟩
    refine ⟨(hp c (by simp)).mpr hc, before, after, rfl, fun b hb => ?_⟩
    rw [Bool.not_eq_true']
    exact Bool.eq_false_iff.mpr fun hb' => hbefore b hb ((hp b (by simp [hb])).mp hb')

theorem matches_iff_answers {e : Expectation} (h : e.Coherent) :
    (matches_ {} e args).1 = true ↔ e.Answers args := by
  unfold matches_ Expectation.Answers
  rw [h.comparedWith?_eq]
  cases hcallable : e.callable with
  | false => simp
  | true =>
    cases hpattern : e.pattern? with
    | some pattern =>
      have hany : e.anyArguments = false :=
        Bool.eq_false_iff.mpr fun hany => by simp [(h.any_pattern hany).1] at hpattern
      simp [Expectation.acceptsAny, hany, hpattern]
    | none =>
      have haccepts : e.acceptsAny = true := by
        rcases h.no_pattern hpattern with hany | hproxy <;> simp [Expectation.acceptsAny, *]
      cases hany : e.anyArguments with
      | true => simp [haccepts, (h.any_pattern hany).2]
      | false =>
        have hproxy := (h.no_pattern hpattern).resolve_left (by simp [hany])
        simp [haccepts, Option.isSome_iff_ne_none.mp hproxy]

/-- The first pass over the candidates picks the first that answers. -/
theorem firstMatch_eq_some_iff (hcoherent : ∀ c ∈ candidates, c.2.Coherent) (log : MatchLog) (id : Nat) :
    (firstMatch args log candidates).1 = some id ↔ ∃ e, IsFirst (·.Answers args) candidates (id, e) := by
  have hfirst := find?_eq_some_iff_isFirst (P := (·.Answers args)) (p := fun e => (matches_ {} e args).1)
    fun c hc => matches_iff_answers (hcoherent c hc)
  simp only [firstMatch_eq_find?, Option.map_eq_some_iff, hfirst, Prod.exists, exists_and_right, exists_eq_right]

theorem firstMatch_eq_none_iff (hcoherent : ∀ c ∈ candidates, c.2.Coherent) (log : MatchLog) :
    (firstMatch args log candidates).1 = none ↔ ∀ c ∈ candidates, ¬c.2.Answers args := by
  rw [firstMatch_eq_find?, Option.map_eq_none_iff, List.find?_eq_none]
  exact forall₂_congr fun c hc => not_congr (matches_iff_answers (hcoherent c hc))

theorem delegates_iff {e : Expectation} (h : e.Coherent) :
    (e.proxy?.isSome && e.acceptsAny && e.callable) = true ↔ e.Delegates := by
  unfold Expectation.Delegates Expectation.acceptsAny
  cases hany : e.anyArguments with
  | true => simp [(h.any_pattern hany).2]
  | false => cases e.proxy? <;> cases e.pattern? <;> simp [and_comm]

/-- The second pass picks the first proxy that stands in for all arguments. -/
theorem firstProxy_eq_some_iff (hcoherent : ∀ c ∈ candidates, c.2.Coherent) (id : Nat) :
    firstProxy candidates = some id ↔ ∃ e, IsFirst Expectation.Delegates candidates (id, e) := by
  have hfirst := find?_eq_some_iff_isFirst (P := Expectation.Delegates)
    (p := fun e => e.proxy?.isSome && e.acceptsAny && e.callable) fun c hc => delegates_iff (hcoherent c hc)
  simp only [firstProxy, Option.map_eq_some_iff, hfirst, Prod.exists, exists_and_right, exists_eq_right]

theorem firstProxy_eq_none_iff (hcoherent : ∀ c ∈ candidates, c.2.Coherent) :
    firstProxy candidates = none ↔ ∀ c ∈ candidates, ¬c.2.Delegates := by
  rw [firstProxy, Option.map_eq_none_iff, List.find?_eq_none]
  exact forall₂_congr fun c hc => not_congr (delegates_iff (hcoherent c hc))

theorem failures_diffOf_eq {e : Expectation} (h : e.Coherent) (log : MatchLog) (args : Arguments) :
    (diffOf log e args).1.failures = e.mismatches args := by
  rw [failures_diffOf {} log, diffOf, h.comparedWith?_eq, Expectation.mismatches]
  cases e.pattern? <;> rfl

/-- The log after the arguments were compared with several candidates, one after the other. -/
def comparedAll (args : Arguments) (log : MatchLog) (candidates : List Candidate) : MatchLog :=
  candidates.foldl (fun log c => (diffOf log c.2 args).2) log

/-- A candidate, with those in front of and behind it, is the first with the fewest mismatches. -/
structure IsClosest (args : Arguments) (before : List Candidate) (c : Candidate) (after : List Candidate) : Prop where
  earlier : ∀ b ∈ before, c.2.mismatches args < b.2.mismatches args
  later : ∀ a ∈ after, c.2.mismatches args ≤ a.2.mismatches args

theorem IsClosest.behind {before after : List Candidate} {c first : Candidate} (h : IsClosest args before c after)
    (hless : c.2.mismatches args < first.2.mismatches args) : IsClosest args (first :: before) c after :=
  ⟨List.forall_mem_cons.mpr ⟨hless, h.earlier⟩, h.later⟩

/-- The third pass replaces the best candidate so far by the closest one, if that is closer still. -/
theorem closest_cases (hcoherent : ∀ c ∈ candidates, c.2.Coherent) (args : Arguments) (log : MatchLog)
    (best : Distance) :
    (closest args (some best) log candidates).1 = some best ∧
        (∀ c ∈ candidates, best.diff.failures ≤ c.2.mismatches args) ∨
      ∃ before c after, candidates = before ++ c :: after ∧ IsClosest args before c after ∧
        c.2.mismatches args < best.diff.failures ∧
        (closest args (some best) log candidates).1 =
          some ⟨c.2, (diffOf (comparedAll args log before) c.2 args).1⟩ := by
  induction candidates generalizing log best with
  | nil => exact .inl ⟨rfl, by simp⟩
  | cons first rest ih =>
    obtain ⟨hfirst, hrest⟩ := List.forall_mem_cons.mp hcoherent
    have hfailures := failures_diffOf_eq hfirst log args
    have hstep : closest args (some best) log (first :: rest) =
        closest args (some (if (diffOf log first.2 args).1.failures < best.diff.failures then
          ⟨first.2, (diffOf log first.2 args).1⟩ else best)) (diffOf log first.2 args).2 rest := rfl
    rw [hstep, hfailures]
    -- the comparison is strict, so an equal candidate does not replace an earlier one
    by_cases hcloser : first.2.mismatches args < best.diff.failures
    · rw [if_pos hcloser]
      right
      rcases ih hrest (diffOf log first.2 args).2 ⟨first.2, (diffOf log first.2 args).1⟩ with
        ⟨hkept, hle⟩ | ⟨before, c, after, rfl, hclosest, hless, hfound⟩
      · exact ⟨[], first, rest, rfl, ⟨by simp, fun a ha => hfailures ▸ hle a ha⟩, hcloser, hkept⟩
      · dsimp only at hless
        rw [hfailures] at hless
        exact ⟨first :: before, c, after, rfl, hclosest.behind hless, Nat.lt_trans hless hcloser, hfound⟩
    · rw [if_neg hcloser]
      have hge := Nat.le_of_not_lt hcloser
      rcases ih hrest (diffOf log first.2 args).2 best with
        ⟨hkept, hle⟩ | ⟨before, c, after, rfl, hclosest, hless, hfound⟩
      · exact .inl ⟨hkept, List.forall_mem_cons.mpr ⟨hge, hle⟩⟩
      · exact .inr ⟨first :: before, c, after, rfl, hclosest.behind (by omega), hless, hfound⟩

/-- Of one candidate or more the third pass finds the closest one. -/
theorem exists_closest (hcoherent : ∀ c ∈ candidates, c.2.Coherent) (hne : candidates ≠ []) (args : Arguments)
    (log : MatchLog) :
    ∃ before c after, candidates = before ++ c :: after ∧ IsClosest args before c after ∧
      (closest args none log candidates).1 =
        some ⟨c.2, (diffOf (comparedAll args log before) c.2 args).1⟩ := by
  obtain ⟨first, rest, rfl⟩ := List.exists_cons_of_ne_nil hne
  obtain ⟨hfirst, hrest⟩ := List.forall_mem_cons.mp hcoherent
  have hfailures := failures_diffOf_eq hfirst log args
  have hstep : closest args none log (first :: rest) =
      closest args (some ⟨first.2, (diffOf log first.2 args).1⟩) (diffOf log first.2 args).2 rest := rfl
  rw [hstep]
  rcases closest_cases hrest args (diffOf log first.2 args).2 ⟨first.2, (diffOf log first.2 args).1⟩ with
    ⟨hkept, hle⟩ | ⟨before, c, after, rfl, hclosest, hless, hfound⟩
  · exact ⟨[], first, rest, rfl, ⟨by simp, fun a ha => hfailures ▸ hle a ha⟩, hkept⟩
  · dsimp only at hless
    rw [hfailures] at hless
    exact ⟨first :: before, c, after, rfl, hclosest.behind hless, hfound⟩

section Select

variable {expected : List Candidate} {method : String}

theorem mem_ofMethod {c : Candidate} : c ∈ ofMethod expected method ↔ c ∈ expected ∧ c.2.method = method := by
  simp [ofMethod]

theorem select_eq_ok_iff_isFirst (hcoherent : ∀ c ∈ ofMethod expected method, c.2.Coherent) (log : MatchLog)
    (args : Arguments) (id : Nat) :
    (select log expected method args).1 = .ok id ↔
      (∃ e, IsFirst (·.Answers args) (ofMethod expected method) (id, e)) ∨
        (∀ c ∈ ofMethod expected method, ¬c.2.Answers args) ∧
          ∃ e, IsFirst Expectation.Delegates (ofMethod expected method) (id, e) := by
  rw [← firstMatch_eq_some_iff hcoherent log, ← firstMatch_eq_none_iff hcoherent log,
    ← firstProxy_eq_some_iff hcoherent]
  unfold select
  dsimp only
  rw [← ofMethod]
  rcases firstMatch args log (ofMethod expected method) with ⟨picked, next⟩
  cases picked with
  | some first => simp
  | none => cases firstProxy (ofMethod expected method) <;> simp

/-- The refusal when no expectation of the method answers or delegates. -/
theorem select_of_none (hcoherent : ∀ c ∈ ofMethod expected method, c.2.Coherent) (log : MatchLog)
    (hnone : ∀ c ∈ ofMethod expected method, ¬c.2.Answers args ∧ ¬c.2.Delegates) :
    select log expected method args =
      (.error (failure
        (closest args none (firstMatch args log (ofMethod expected method)).2 (ofMethod expected method)).2 method args
        (closest args none (firstMatch args log (ofMethod expected method)).2 (ofMethod expected method)).1),
      (closest args none (firstMatch args log (ofMethod expected method)).2 (ofMethod expected method)).2) := by
  have hmatch := (firstMatch_eq_none_iff hcoherent log).mpr fun c hc => (hnone c hc).1
  have hproxy := (firstProxy_eq_none_iff hcoherent).mpr fun c hc => (hnone c hc).2
  unfold select
  dsimp only
  rw [← ofMethod]
  rcases hfirst : firstMatch args log (ofMethod expected method) with ⟨picked, next⟩
  obtain rfl : picked = none := by rw [← hmatch, hfirst]
  simp only [hproxy]

/-- What the refusal says: there is no expectation of the method, or the first without mismatches was called as often
    as it may be, or each has some and the closest is named with its differences. -/
theorem failure_cases (hcoherent : ∀ c ∈ candidates, c.2.Coherent)
    (hnone : ∀ c ∈ candidates, ¬c.2.Answers args ∧ ¬c.2.Delegates) (log notes : MatchLog) (method : String) :
    (candidates = [] ∧
      (failure notes method args (closest args none log candidates).1).header = Notice.callNotFound) ∨
    (∃ c, IsFirst (fun e => e.mismatches args = 0) candidates c ∧ c.2.callable = false ∧
      failure notes method args (closest args none log candidates).1 = c.2.tooManyCalls notes) ∨
    candidates ≠ [] ∧ (∀ c ∈ candidates, c.2.mismatches args ≠ 0) ∧
      ∃ before c after pattern, candidates = before ++ c :: after ∧ IsClosest args before c after ∧
        c.2.pattern? = some pattern ∧
        failure notes method args (closest args none log candidates).1 =
          ⟨Notice.unexpectedCall, [("method", Arguments.signature method args), ("closest", c.2.signature),
            ("created at", c.2.location),
            ("diff", (Arguments.diff (comparedAll args log before) pattern args).1.text)], []⟩ := by
  by_cases hempty : candidates = []
  · subst hempty
    exact .inl ⟨rfl, rfl⟩
  · obtain ⟨before, c, after, hsplit, hclosest, hfound⟩ := exists_closest hcoherent hempty args log
    have hmem : c ∈ candidates := by simp [hsplit]
    have hfailures := failures_diffOf_eq (hcoherent c hmem) (comparedAll args log before) args
    right
    rw [hfound]
    by_cases hzero : c.2.mismatches args = 0
    · -- it would have been picked before, had it been callable: without mismatches it answers or delegates
      have hcallable : c.2.callable = false := Bool.eq_false_iff.mpr fun hcallable =>
        ((hcoherent c hmem).answers_or_delegates hcallable hzero).elim (hnone c hmem).1 (hnone c hmem).2
      left
      refine ⟨c, ⟨before, after, hsplit, hzero, fun b hb => ?_⟩, hcallable, ?_⟩
      · have hless := hclosest.earlier b hb
        omega
      · simp [failure, hcallable, Arguments.Diff.isMatch, hfailures, hzero]
    · right
      refine ⟨hempty, fun a ha => ?_, ?_⟩
      · rw [hsplit, List.mem_append, List.mem_cons] at ha
        rcases ha with hb | rfl | ha
        · have hless := hclosest.earlier a hb
          omega
        · exact hzero
        · have hle := hclosest.later a ha
          omega
      · cases hpattern : c.2.pattern? with
        | none => exact absurd (by simp [Expectation.mismatches, hpattern]) hzero
        | some pattern =>
          have hdiff : diffOf (comparedAll args log before) c.2 args =
              Arguments.diff (comparedAll args log before) pattern args := by
            rw [diffOf, (hcoherent c hmem).comparedWith?_eq, hpattern]
          rw [hdiff] at hfailures
          refine ⟨before, c, after, pattern, hsplit, hclosest, hpattern, ?_⟩
          simp [failure, Arguments.Diff.isMatch, hdiff, hfailures, hzero, Notice.row]

theorem get?_tooManyCalls (e : Expectation) (notes : MatchLog) :
    (e.tooManyCalls notes).get? "want" = some (toString e.times) ∧
      (e.tooManyCalls notes).get? "have" = some (toString (e.count + 1)) := by
  unfold Expectation.tooManyCalls
  cases e.comparedWith? <;> simp [Notice.get?, Notice.row]

/-- What a refusal says of the expectations of the method called. The differences it shows were found with the notes
    `compared` at hand, and it was written with the notes `notes`. -/
structure Explains (method : String) (args : Arguments) (candidates : List Candidate) (compared notes : MatchLog)
    (n : Notice) : Prop where
  unknown : n.header = Notice.callNotFound ↔ candidates = []
  exhausted : n.header = Notice.tooManyCalls ↔ ∃ c ∈ candidates, c.2.mismatches args = 0
  unexpected : n.header = Notice.unexpectedCall ↔ candidates ≠ [] ∧ ∀ c ∈ candidates, c.2.mismatches args ≠ 0
  /-- The first expectation without mismatches is described, with the calls it may have and those it would have had. -/
  describes_first : n.header = Notice.tooManyCalls →
    ∃ c, IsFirst (fun e => e.mismatches args = 0) candidates c ∧ c.2.callable = false ∧ n = c.2.tooManyCalls notes ∧
      n.get? "want" = some (toString c.2.times) ∧ n.get? "have" = some (toString (c.2.count + 1))
  /-- The first expectation with the fewest mismatches is named, with the place it was set up at and its differences. -/
  names_closest : n.header = Notice.unexpectedCall →
    ∃ before c after pattern, candidates = before ++ c :: after ∧ IsClosest args before c after ∧
      c.2.pattern? = some pattern ∧
      n = ⟨Notice.unexpectedCall, [("method", Arguments.signature method args), ("closest", c.2.signature),
        ("created at", c.2.location),
        ("diff", (Arguments.diff (comparedAll args compared before) pattern args).1.text)], []⟩

private theorem explains_failure (hcoherent : ∀ c ∈ candidates, c.2.Coherent)
    (hnone : ∀ c ∈ candidates, ¬c.2.Answers args ∧ ¬c.2.Delegates) (log notes : MatchLog) (method : String) :
    Explains method args candidates log notes (failure notes method args (closest args none log candidates).1) := by
  rcases failure_cases hcoherent hnone log notes method with
    ⟨rfl, hheader⟩ | ⟨c, hfirst, hcallable, hnotice⟩ |
      ⟨hne, hmismatches, before, c, after, pattern, hsplit, hclosest, hpattern, hnotice⟩
  · constructor <;> rw [hheader] <;> simp [Notice.callNotFound, Notice.tooManyCalls, Notice.unexpectedCall]
  · have hheader := tooManyCalls_header c.2 notes
    have hmem : c ∈ candidates := by
      obtain ⟨before, after, hsplit, -⟩ := hfirst
      simp [hsplit]
    have hmatch : c.2.mismatches args = 0 := by
      obtain ⟨-, -, -, hmatch, -⟩ := hfirst
      exact hmatch
    rw [hnotice]
    constructor
    case unknown => simp [hheader, Notice.tooManyCalls, Notice.callNotFound, List.ne_nil_of_mem hmem]
    case exhausted => simpa [hheader] using ⟨c.1, c.2, hmem, hmatch⟩
    case unexpected =>
      simpa [hheader, Notice.tooManyCalls, Notice.unexpectedCall] using fun _ => ⟨c.1, c.2, hmem, hmatch⟩
    case describes_first => exact fun _ => ⟨c, hfirst, hcallable, rfl, get?_tooManyCalls c.2 notes⟩
    case names_closest => simp [hheader, Notice.tooManyCalls, Notice.unexpectedCall]
  · have hheader := congrArg Notice.header hnotice
    constructor
    case unknown => simp [hheader, Notice.unexpectedCall, Notice.callNotFound, hne]
    case exhausted =>
      simpa [hheader, Notice.unexpectedCall, Notice.tooManyCalls] using fun id e h => hmismatches (id, e) h
    case unexpected => exact iff_of_true hheader ⟨hne, hmismatches⟩
    case describes_first => simp [hheader, Notice.unexpectedCall, Notice.tooManyCalls]
    case names_closest => exact fun _ => ⟨before, c, after, pattern, hsplit, hclosest, hpattern, hnotice⟩

/-- A call picks the first expectation of its method that answers, or if none does the first that delegates, and is
    refused if there is neither. The refusal says that the method is unknown exactly if no expectation has it; that
    there were too many calls exactly if some expectation has no mismatches, and then describes the first such one; and
    that the call is unexpected exactly if all have mismatches, and then names the first with the fewest. -/
theorem select_meets_specification {expected : List Candidate} (hregistered : ∀ c ∈ expected, c.2.Registered)
    (log : MatchLog) (method : String) (args : Arguments) :
    (∀ id, (select log expected method args).1 = .ok id ↔
      (∃ e, IsFirst (·.Answers args) (ofMethod expected method) (id, e)) ∨
        (∀ c ∈ ofMethod expected method, ¬c.2.Answers args) ∧
          ∃ e, IsFirst Expectation.Delegates (ofMethod expected method) (id, e)) ∧
    ((∀ c ∈ ofMethod expected method, ¬c.2.Answers args ∧ ¬c.2.Delegates) →
      ∃ n, (select log expected method args).1 = .error n ∧
        Explains method args (ofMethod expected method) (firstMatch args log (ofMethod expected method)).2
          (select log expected method args).2 n) := by
  have hcoherent : ∀ c ∈ ofMethod expected method, c.2.Coherent := fun c hc =>
    (hregistered c (mem_ofMethod.mp hc).1).coherent
  refine ⟨select_eq_ok_iff_isFirst hcoherent log args, fun hnone => ?_⟩
  rw [select_of_none hcoherent log hnone]
  exact ⟨_, rfl, explains_failure hcoherent hnone _ _ method⟩

/-- One call with any arguments, which has been made, and then those with a certain one. -/
def twoGets : List Act :=
  [.newMock false, .onAny 0 "Get" "get.rs:1", .configure 0 (.times 1), .call 0 "Get" [.text "z"],
    .on 0 "Get" [.text "a"] "get.rs:2"]

/-- The first expectation of `twoGets`. -/
def madeGet : Expectation :=
  { owner := 0, method := "Get", location := "get.rs:1", anyArguments := true, times := 1, count := 1 }

/-- The second expectation of `twoGets`. -/
def awaitedGet : Expectation := { owner := 0, method := "Get", location := "get.rs:2", pattern? := some [.text "a"] }

theorem select_of_twoGets :
    (select {} ((Session.run {} twoGets).expected 0) "Get" [.text "a"]).1 = .ok 1 ∧
      ∃ n, (select {} ((Session.run {} twoGets).expected 0) "Get" [.text "b"]).1 = .error n ∧
        n.header = Notice.tooManyCalls ∧ n.get? "want" = some "1" ∧ n.get? "have" = some "2" := by
  have hregistered : ∀ c ∈ (Session.run {} twoGets).expected 0, c.2.Registered := fun c hc =>
    ⟨twoGets, c.1, (Session.mem_expected.mp hc).2⟩
  have hgets : ofMethod ((Session.run {} twoGets).expected 0) "Get" = [(0, madeGet), (1, awaitedGet)] := by rfl
  have hmade : ¬madeGet.callable = true := by decide
  have hmatch : (Arguments.diff {} [.text "a"] [.text "a"]).1.isMatch = true := by
    rw [Arguments.Diff.isMatch, Arguments.failures_diff_eq]
    decide
  have hmismatch : (Arguments.diff {} [.text "a"] [.text "b"]).1.isMatch = false := by
    rw [Arguments.Diff.isMatch, Arguments.failures_diff_eq]
    decide
  obtain ⟨hpicks, -⟩ := select_meets_specification hregistered {} "Get" [.text "a"]
  obtain ⟨-, hrefuses⟩ := select_meets_specification hregistered {} "Get" [.text "b"]
  rw [hgets] at hpicks hrefuses
  constructor
  · refine (hpicks 1).mpr (.inl ⟨awaitedGet, [(0, madeGet)], [], rfl, ⟨rfl, .inr ⟨_, rfl, hmatch⟩⟩, ?_⟩)
    rintro b hb ⟨hcallable, -⟩
    obtain rfl : b = (0, madeGet) := by simpa using hb
    exact hmade hcallable
  · obtain ⟨n, hselect, hexplains⟩ := hrefuses (by
      simp [Expectation.Answers, Expectation.Delegates, hmade, awaitedGet, hmismatch])
    have hheader := hexplains.exhausted.mpr ⟨(0, madeGet), by simp, rfl⟩
    obtain ⟨c, ⟨before, after, hsplit, -⟩, hcallable, -, hwant, hhave⟩ := hexplains.describes_first hheader
    have hmem : c ∈ [(0, madeGet), (1, awaitedGet)] := by simp [hsplit]
    simp only [List.mem_cons, List.not_mem_nil, or_false] at hmem
    rcases hmem with rfl | rfl
    · exact ⟨n, hselect, hheader, hwant, hhave⟩
    · cases hcallable

end Select

end TraitMock.Selection
