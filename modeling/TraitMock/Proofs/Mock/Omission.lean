import TraitMock.Proofs.Arguments.Outside
import TraitMock.Proofs.Mock.Notes

namespace TraitMock

/-- The number of an expectation when the one with the number `c` does not exist. -/
def passed (c id : Nat) : Nat := if c < id then id - 1 else id

theorem passed_of_lt {c id : Nat} (h : id < c) : passed c id = id := if_neg (by omega)

theorem passed_inj {c i j : Nat} (hi : i ≠ c) (hj : j ≠ c) : passed c i = passed c j ↔ i = j := by
  unfold passed
  split <;> split <;> omega

namespace Expectation

/-- The expectation with the numbers of its prerequisites when the one with the number `c` does not exist. -/
def passing (c : Nat) (e : Expectation) : Expectation := { e with requires := e.requires.map (passed c) }

/-- The expectation compares arguments with no other matchers than those inside a set. -/
def ComparesInside (inside : Nat → Prop) (e : Expectation) : Prop :=
  ∀ pattern, e.comparedWith? = some pattern → pattern.Inside inside

/-- The expectation compares arguments with no matcher of a set. -/
def ComparesOutside (inside : Nat → Prop) (e : Expectation) : Prop :=
  ∀ pattern, e.comparedWith? = some pattern → pattern.Outside inside

/-- The function that answers the calls of the expectation, if there is one, does not look at the notes inside a set. -/
def AnswersOutside (inside : Nat → Prop) (e : Expectation) : Prop :=
  ∀ p, e.proxy? = some p → ∀ turn log log' args, log.SameOutside inside log' →
    p.function.run turn log' args = p.function.run turn log args

variable {inside : Nat → Prop} {e : Expectation} {args : Arguments} {log log' : MatchLog}

/-- The failure of one more call than allowed shows the notes outside only. -/
theorem ComparesOutside.tooManyCalls_eq (h : e.ComparesOutside inside) (hlog : log.SameOutside inside log') :
    e.tooManyCalls log' = e.tooManyCalls log := by
  unfold tooManyCalls
  cases hpattern : e.comparedWith? with
  | none => rfl
  | some pattern => simp only [(h pattern hpattern).render_eq hlog]

theorem AnswersOutside.answer_eq (h : e.AnswersOutside inside) (hlog : log.SameOutside inside log') (args : Arguments) :
    e.answer log' args = e.answer log args :=
  answer_eq_of_run_eq args fun p hp values => h p hp e.count log log' values hlog

end Expectation

namespace Selection

open MatchLog (SameOutside)

variable {inside : Nat → Prop} {c : Nat} {args : Arguments} {log log' : MatchLog} {candidates : List Candidate}

theorem sameOutside_matches (h : log.SameOutside inside log') (e : Expectation) (args : Arguments) :
    (matches_ log e args).2.SameOutside inside (matches_ log' e args).2 := by
  unfold matches_
  split
  · exact h
  · split
    · exact h
    · cases e.comparedWith? with
      | none => exact h
      | some pattern => exact Arguments.sameOutside_diff h pattern args

theorem sameOutside_diffOf (h : log.SameOutside inside log') (e : Expectation) (args : Arguments) :
    (diffOf log e args).2.SameOutside inside (diffOf log' e args).2 := by
  unfold diffOf
  cases e.comparedWith? with
  | none => exact h
  | some pattern => exact Arguments.sameOutside_diff h pattern args

end Selection

theorem Expectation.ComparesInside.sameOutside_matches {inside : Nat → Prop} {e : Expectation}
    (h : e.ComparesInside inside) (log : MatchLog) (args : Arguments) :
    log.SameOutside inside (Selection.matches_ log e args).2 := by
  unfold Selection.matches_
  split
  · exact .refl log
  · split
    · exact .refl log
    · cases hpattern : e.comparedWith? with
      | none => exact .refl log
      | some pattern => exact (h pattern hpattern).sameOutside_diff log args

theorem Expectation.ComparesInside.sameOutside_diffOf {inside : Nat → Prop} {e : Expectation}
    (h : e.ComparesInside inside) (log : MatchLog) (args : Arguments) :
    log.SameOutside inside (Selection.diffOf log e args).2 := by
  unfold Selection.diffOf
  cases hpattern : e.comparedWith? with
  | none => exact .refl log
  | some pattern => exact (h pattern hpattern).sameOutside_diff log args

namespace Selection

open MatchLog (SameOutside)

variable {inside : Nat → Prop} {c : Nat} {args : Arguments} {log log' : MatchLog} {candidates : List Candidate}

/-- A candidate as it is known when the expectation with the number `c` does not exist. -/
def renumbered (c : Nat) (x : Candidate) : Candidate := (passed c x.1, x.2.passing c)

/-- The candidates without the one with the number `c`. -/
def leaveOut (c : Nat) (candidates : List Candidate) : List Candidate :=
  (candidates.filter fun x => x.1 ≠ c).map (renumbered c)

theorem leaveOut_cons_self {x : Candidate} (h : x.1 = c) (candidates : List Candidate) :
    leaveOut c (x :: candidates) = leaveOut c candidates := by
  simp [leaveOut, h]

theorem leaveOut_cons_of_ne {x : Candidate} (h : x.1 ≠ c) (candidates : List Candidate) :
    leaveOut c (x :: candidates) = renumbered c x :: leaveOut c candidates := by
  simp [leaveOut, h]

private theorem filter_leaveOut (c : Nat) (candidates : List Candidate) (method : String) :
    (leaveOut c candidates).filter (fun x => x.2.method == method) =
      leaveOut c (candidates.filter fun x => x.2.method == method) := by
  simp only [leaveOut, List.filter_map, List.filter_filter]
  congr 1
  exact List.filter_congr fun x _ => Bool.and_comm _ _

/-- A search finds the same without a candidate that it does not find. -/
theorem find?_leaveOut {p : Expectation → Bool} (hp : ∀ e, p (e.passing c) = p e)
    (hnot : (candidates.find? fun x => p x.2).map (·.1) ≠ some c) :
    ((leaveOut c candidates).find? fun x => p x.2).map (·.1) =
      ((candidates.find? fun x => p x.2).map (·.1)).map (passed c) := by
  induction candidates with
  | nil => rfl
  | cons x rest ih =>
    by_cases hc : x.1 = c
    · rw [leaveOut_cons_self hc]
      cases hx : p x.2 with
      | true => simp [hx, hc] at hnot
      | false =>
        simp only [List.find?_cons, hx] at hnot ⊢
        exact ih hnot
    · rw [leaveOut_cons_of_ne hc]
      have hpass : p (renumbered c x).2 = p x.2 := hp x.2
      cases hx : p x.2 with
      | true =>
        simp only [List.find?_cons, hpass, hx]
        rfl
      | false =>
        simp only [List.find?_cons, hpass, hx] at hnot ⊢
        exact ih hnot

/-- The first pass finds the same without a candidate that it does not find. -/
theorem firstMatch_leaveOut (hnot : (firstMatch args log candidates).1 ≠ some c) (log' : MatchLog) :
    (firstMatch args log' (leaveOut c candidates)).1 = (firstMatch args log candidates).1.map (passed c) := by
  rw [firstMatch_eq_find?] at hnot ⊢
  rw [firstMatch_eq_find?]
  exact find?_leaveOut (p := fun e => (matches_ {} e args).1) (fun _ => rfl) hnot

private theorem firstProxy_leaveOut (hnot : firstProxy candidates ≠ some c) :
    firstProxy (leaveOut c candidates) = (firstProxy candidates).map (passed c) :=
  find?_leaveOut (p := fun e => e.proxy?.isSome && e.acceptsAny && e.callable) (fun _ => rfl) hnot

/-- The first pass stops at the same candidate without one that it does not find, and so notes the same outside. -/
theorem sameOutside_firstMatch (hlog : log.SameOutside inside log')
    (hinside : ∀ x ∈ candidates, x.1 = c → x.2.ComparesInside inside)
    (hnot : (firstMatch args log candidates).1 ≠ some c) :
    (firstMatch args log candidates).2.SameOutside inside (firstMatch args log' (leaveOut c candidates)).2 := by
  induction candidates generalizing log log' with
  | nil => exact hlog
  | cons x rest ih =>
    obtain ⟨hx, hrest⟩ := List.forall_mem_cons.mp hinside
    by_cases hc : x.1 = c
    · -- it does not match, and its comparison reaches the notes inside only
      have hnotes := (hx hc).sameOutside_matches log args
      rw [leaveOut_cons_self hc]
      rcases hmatch : matches_ log x.2 args with ⟨verdict, next⟩
      rw [hmatch] at hnotes
      cases verdict with
      | true => simp [firstMatch, hmatch, hc] at hnot
      | false =>
        simp only [firstMatch, hmatch] at hnot ⊢
        exact ih (hnotes.symm.trans hlog) hrest hnot
    · have hverdict := matches_fst log log' x.2 args
      have hnotes := sameOutside_matches hlog x.2 args
      have hpass : matches_ log' (x.2.passing c) args = matches_ log' x.2 args := rfl
      rw [leaveOut_cons_of_ne hc]
      rcases hmatch : matches_ log x.2 args with ⟨verdict, next⟩
      rcases hmatch' : matches_ log' x.2 args with ⟨verdict', next'⟩
      rw [hmatch, hmatch'] at hverdict hnotes
      obtain rfl : verdict' = verdict := hverdict
      cases verdict' with
      | true => simpa only [firstMatch, renumbered, hmatch, hpass, hmatch'] using hnotes
      | false =>
        simp only [firstMatch, renumbered, hmatch, hpass, hmatch'] at hnot ⊢
        exact ih hnotes hrest hnot

/-- The third pass compares the same arguments without a candidate, whichever is the closest one. -/
theorem sameOutside_closest (hlog : log.SameOutside inside log')
    (hinside : ∀ x ∈ candidates, x.1 = c → x.2.ComparesInside inside) (best best' : Option Distance) :
    (closest args best log candidates).2.SameOutside inside (closest args best' log' (leaveOut c candidates)).2 := by
  induction candidates generalizing log log' best best' with
  | nil => exact hlog
  | cons x rest ih =>
    obtain ⟨hx, hrest⟩ := List.forall_mem_cons.mp hinside
    by_cases hc : x.1 = c
    · rw [leaveOut_cons_self hc]
      exact ih (((hx hc).sameOutside_diffOf log args).symm.trans hlog) hrest _ _
    · rw [leaveOut_cons_of_ne hc]
      exact ih (sameOutside_diffOf hlog x.2 args) hrest _ _

/-- How selections with and without a candidate agree. -/
inductive SamePick (c : Nat) (similar : Notice → Notice → Prop) : Except Notice Nat → Except Notice Nat → Prop where
  | picked (id : Nat) : SamePick c similar (.ok id) (.ok (passed c id))
  | refused {n n' : Notice} (h : similar n n') : SamePick c similar (.error n) (.error n')

variable {expected : List Candidate} {method : String}

/-- The refusal of a call that no candidate answers, with the notes there are after the first pass. -/
def refusal (log : MatchLog) (method : String) (args : Arguments) (candidates : List Candidate) : Notice :=
  failure (closest args none log candidates).2 method args (closest args none log candidates).1

/-- A selection picks the same without a candidate that it does not pick, or is refused in both cases. -/
theorem select_leaveOut {similar : Notice → Notice → Prop} (hlog : log.SameOutside inside log')
    (hinside : ∀ x ∈ expected, x.1 = c → x.2.ComparesInside inside)
    (hnot : (select log expected method args).1 ≠ .ok c)
    (hsimilar : ∀ next next', next.SameOutside inside next' →
      similar (refusal next method args (expected.filter fun x => x.2.method == method))
        (refusal next' method args (leaveOut c (expected.filter fun x => x.2.method == method)))) :
    SamePick c similar (select log expected method args).1 (select log' (leaveOut c expected) method args).1 ∧
      (select log expected method args).2.SameOutside inside
        (select log' (leaveOut c expected) method args).2 := by
  unfold select at hnot ⊢
  dsimp only at hnot ⊢
  rw [filter_leaveOut]
  have hnamed : ∀ x ∈ expected.filter (fun x => x.2.method == method), x.1 = c → x.2.ComparesInside inside :=
    fun x hx => hinside x (List.mem_of_mem_filter hx)
  generalize expected.filter (fun x => x.2.method == method) = named at hnot hnamed hsimilar ⊢
  have hnotFirst : (firstMatch args log named).1 ≠ some c := by
    intro hfirst
    rcases hmatch : firstMatch args log named with ⟨picked, next⟩
    rw [hmatch] at hfirst hnot
    obtain rfl : picked = some c := hfirst
    exact hnot rfl
  have hfirst := firstMatch_leaveOut hnotFirst log'
  have hnotes := sameOutside_firstMatch hlog hnamed hnotFirst
  rcases hmatch : firstMatch args log named with ⟨picked, next⟩
  rcases hmatch' : firstMatch args log' (leaveOut c named) with ⟨picked', next'⟩
  rw [hmatch, hmatch'] at hfirst hnotes
  rw [hmatch] at hnot
  obtain rfl : picked' = picked.map (passed c) := hfirst
  cases picked with
  | some id => exact ⟨.picked id, hnotes⟩
  | none =>
    dsimp only [Option.map_none] at hnot hnotes ⊢
    have hnotProxy : firstProxy named ≠ some c := by
      intro hproxy
      rw [hproxy] at hnot
      exact hnot rfl
    rw [firstProxy_leaveOut hnotProxy]
    cases firstProxy named with
    | some id => exact ⟨.picked id, hnotes⟩
    | none => exact ⟨.refused (hsimilar next next' hnotes), sameOutside_closest hnotes hnamed none none⟩

/-- Two notices have the same header, and if `exact` holds they are the same. -/
structure SimilarNotices (exact : Prop) (n n' : Notice) : Prop where
  header : n'.header = n.header
  eq : exact → n' = n

/-- Two of the closest candidates are the same one with as many differences. If `exact` holds, the differences are the
    same, and the candidate compares with no matcher inside. -/
structure Distance.Alike (c : Nat) (inside : Nat → Prop) (exact : Prop) (d d' : Distance) : Prop where
  expectation : d'.expectation = d.expectation.passing c
  failures : d'.diff.failures = d.diff.failures
  diff : exact → d'.diff = d.diff
  outside : exact → d.expectation.ComparesOutside inside

variable {exact : Prop}

private theorem diffOf_eq_of_comparesOutside {e : Expectation} (h : e.ComparesOutside inside) (hargs : args.Outside inside)
    (hlog : log.SameOutside inside log') : (diffOf log' e args).1 = (diffOf log e args).1 := by
  unfold diffOf
  cases hpattern : e.comparedWith? with
  | none => rfl
  | some pattern => exact (h pattern hpattern).diff_eq hargs hlog

/-- Without a candidate that is not there the third pass finds the same one. -/
theorem closest_leaveOut (hlog : log.SameOutside inside log') (habsent : ∀ x ∈ candidates, x.1 ≠ c)
    (hexact : exact → args.Outside inside ∧ ∀ x ∈ candidates, x.2.ComparesOutside inside) {best best' : Option Distance}
    (hbest : Option.Rel (Distance.Alike c inside exact) best best') :
    Option.Rel (Distance.Alike c inside exact) (closest args best log candidates).1
      (closest args best' log' (leaveOut c candidates)).1 := by
  induction candidates generalizing log log' best best' with
  | nil => exact hbest
  | cons x rest ih =>
    obtain ⟨hx, hrest⟩ := List.forall_mem_cons.mp habsent
    have hnext : Distance.Alike c inside exact ⟨x.2, (diffOf log x.2 args).1⟩
        ⟨x.2.passing c, (diffOf log' x.2 args).1⟩ := by
      refine ⟨rfl, failures_diffOf log log' x.2 args, fun h => ?_, fun h => (hexact h).2 x (.head _)⟩
      exact diffOf_eq_of_comparesOutside ((hexact h).2 x (.head _)) (hexact h).1 hlog
    have hlater := sameOutside_diffOf hlog x.2 args
    rw [leaveOut_cons_of_ne hx]
    refine ih hlater hrest (fun h => ⟨(hexact h).1, fun y hy => (hexact h).2 y (.tail _ hy)⟩) ?_
    cases hbest with
    | none => exact .some hnext
    | @some b b' hb =>
      change Option.Rel _
        (some (if (diffOf log x.2 args).1.failures < b.diff.failures then ⟨x.2, (diffOf log x.2 args).1⟩ else b))
        (some (if (diffOf log' x.2 args).1.failures < b'.diff.failures then
          ⟨x.2.passing c, (diffOf log' x.2 args).1⟩ else b'))
      rw [show (diffOf log' x.2 args).1.failures = (diffOf log x.2 args).1.failures from hnext.failures, hb.failures]
      split
      · exact .some hnext
      · exact .some hb

private theorem failure_similar (hlog : log.SameOutside inside log') (hargs : exact → args.Outside inside)
    {best best' : Option Distance} (hbest : Option.Rel (Distance.Alike c inside exact) best best') (method : String) :
    SimilarNotices exact (failure log method args best) (failure log' method args best') := by
  cases hbest with
  | none =>
    refine ⟨rfl, fun h => ?_⟩
    unfold failure shownArguments
    cases args with
    | nil => rfl
    | cons v rest =>
      have hrender : (v :: rest).mapIdx (fun i v => toString i ++ ": " ++ v.render log') =
          (v :: rest).mapIdx fun i v => toString i ++ ": " ++ v.render log :=
        List.mapIdx_eq_mapIdx_iff.mpr fun i hi => by rw [(hargs h _ (List.getElem_mem hi)).render_eq hlog]
      simp only [hrender]
  | @some d d' hd =>
    obtain ⟨e, diff⟩ := d
    obtain ⟨e', diff'⟩ := d'
    obtain ⟨rfl, hfailures, hdiff, houtside⟩ := hd
    dsimp only at hfailures hdiff houtside
    have hmatch : diff'.isMatch = diff.isMatch := by rw [Arguments.Diff.isMatch, hfailures, Arguments.Diff.isMatch]
    have hcallable : (e.passing c).callable = e.callable := rfl
    unfold failure
    dsimp only
    rw [hmatch, hcallable]
    split
    · refine ⟨(tooManyCalls_header _ log').trans (tooManyCalls_header e log).symm, fun h => ?_⟩
      exact (houtside h).tooManyCalls_eq hlog
    · refine ⟨rfl, fun h => ?_⟩
      rw [hdiff h]
      rfl

/-- Without a candidate that is not there a selection picks the same, or is refused in a similar way. -/
theorem select_leaveOut_of_absent (hlog : log.SameOutside inside log') (habsent : ∀ x ∈ expected, x.1 ≠ c)
    (hexact : exact → args.Outside inside ∧
      ∀ x ∈ expected.filter (fun x => x.2.method == method), x.2.ComparesOutside inside) :
    SamePick c (SimilarNotices exact) (select log expected method args).1
      (select log' (leaveOut c expected) method args).1 := by
  have hinside : ∀ x ∈ expected, x.1 = c → x.2.ComparesInside inside := fun x hx hc => absurd hc (habsent x hx)
  have hnot : (select log expected method args).1 ≠ .ok c := by
    intro hpicked
    obtain ⟨e, hmem, -⟩ := select_eq_ok (Prod.ext hpicked rfl)
    exact habsent (c, e) hmem rfl
  have hnamed : ∀ x ∈ expected.filter (fun x => x.2.method == method), x.1 ≠ c :=
    fun x hx => habsent x (List.mem_of_mem_filter hx)
  refine (select_leaveOut hlog hinside hnot fun next next' hnotes => ?_).1
  exact failure_similar (sameOutside_closest hnotes (fun x hx hc => absurd hc (hnamed x hx)) none none)
    (fun h => (hexact h).1) (closest_leaveOut hnotes hnamed hexact .none) method

end Selection
end TraitMock
