import Mathlib.Algebra.GroupWithZero.Nat
import Mathlib.Data.List.Nodup
import TraitMock.Proofs.Mock.Preference

namespace TraitMock.Expectation

/-- The expectation is a proxy without a pattern. -/
def standsIn (e : Expectation) : Bool := e.proxy?.isSome && e.pattern?.isNone

/-- An expectation without prerequisites that was not called yet, and in which the arguments match. -/
structure Awaits (e : Expectation) (args : Arguments) : Prop where
  requires : e.requires = []
  count : e.count = 0
  mismatches : e.mismatches args = 0

/-- The expectation after so many more calls. -/
def afterCalls (e : Expectation) (n : Nat) : Expectation :=
  { e with count := e.count + n, gate? := e.gate?.map (· - n) }

variable {e : Expectation} {args : Arguments} {n : Nat}

@[simp] theorem afterCalls_zero (e : Expectation) : e.afterCalls 0 = e := by
  simp [afterCalls]

theorem counted_afterCalls (e : Expectation) (n : Nat) : (e.afterCalls n).counted = e.afterCalls (n + 1) := by
  simp [counted, afterCalls, Nat.add_assoc, Function.comp_def, Nat.sub_sub]

@[simp] theorem standsIn_afterCalls (e : Expectation) (n : Nat) : (e.afterCalls n).standsIn = e.standsIn := rfl

@[simp] theorem method_afterCalls (e : Expectation) (n : Nat) : (e.afterCalls n).method = e.method := rfl

@[simp] theorem requires_afterCalls (e : Expectation) (n : Nat) : (e.afterCalls n).requires = e.requires := rfl

@[simp] theorem mismatches_afterCalls (e : Expectation) (n : Nat) (args : Arguments) :
    (e.afterCalls n).mismatches args = e.mismatches args := rfl

/-- An expectation that awaits calls can be called as often as it may. -/
theorem Awaits.callable_afterCalls (h : e.Awaits args) (n : Nat) :
    (e.afterCalls n).callable = true ↔ e.times = 0 ∨ n < e.times := by
  simp [callable, afterCalls, h.count]

/-- An expectation that was called as often as it may be cannot be called any more. -/
theorem Awaits.not_callable_afterCalls_times (h : e.Awaits args) (hlimited : 0 < e.times) :
    (e.afterCalls e.times).callable = false := by
  simp [callable, afterCalls, h.count, Nat.ne_of_gt hlimited]

private theorem answers_iff_of_mismatches (h : e.Coherent) (hmatch : e.mismatches args = 0) :
    e.Answers args ↔ (!e.standsIn && e.callable) = true := by
  constructor
  · rintro ⟨hcallable, ⟨-, hproxy⟩ | ⟨pattern, hpattern, -⟩⟩
    · simp [hcallable, standsIn, hproxy]
    · simp [hcallable, standsIn, hpattern]
  · intro hboth
    obtain ⟨hnot, hcallable⟩ : e.standsIn = false ∧ e.callable = true := by simpa using hboth
    refine (h.answers_or_delegates hcallable hmatch).resolve_right fun hdelegates => ?_
    simp [standsIn, hdelegates.2.1, hdelegates.2.2] at hnot

private theorem delegates_iff_standsIn : e.Delegates ↔ (e.standsIn && e.callable) = true := by
  simp [Delegates, standsIn, and_comm]

end TraitMock.Expectation

namespace TraitMock.Selection

variable {args : Arguments} {candidates before after : List Candidate} {c : Candidate} {k n : Nat}

/-- Candidates in the order of their turns. -/
def turns (candidates : List Candidate) : List Candidate :=
  candidates.filter (fun c => !c.2.standsIn) ++ candidates.filter fun c => c.2.standsIn

theorem mem_turns : c ∈ turns candidates ↔ c ∈ candidates := by
  cases hproxy : c.2.standsIn <;> simp [turns, hproxy]

theorem turns_perm (candidates : List Candidate) : (turns candidates).Perm candidates := by
  have hparts := List.filter_append_perm (fun c : Candidate => !c.2.standsIn) candidates
  simpa [turns] using hparts

/-- Whoever may be called is called once more, if it is the first such candidate. -/
def countFirst : List Candidate → List Candidate
  | [] => []
  | c :: rest => if c.2.callable then (c.1, c.2.counted) :: rest else c :: countFirst rest

private theorem countFirst_of_isFirst (hbefore : ∀ b ∈ before, b.2.callable = false) (hc : c.2.callable = true) :
    countFirst (before ++ c :: after) = before ++ (c.1, c.2.counted) :: after := by
  induction before with
  | nil => simp [countFirst, hc]
  | cons first before ih =>
    obtain ⟨hfirst, hrest⟩ := List.forall_mem_cons.mp hbefore
    simp [countFirst, hfirst, ih hrest]

private theorem countFirst_of_none (hnone : ∀ c ∈ candidates, c.2.callable = false) : countFirst candidates = candidates := by
  induction candidates with
  | nil => rfl
  | cons first rest ih =>
    obtain ⟨hfirst, hrest⟩ := List.forall_mem_cons.mp hnone
    simp [countFirst, hfirst, ih hrest]

private theorem mem_countFirst (h : c ∈ countFirst candidates) :
    ∃ old ∈ candidates, c = old ∨ c = (old.1, old.2.counted) := by
  induction candidates with
  | nil => simp [countFirst] at h
  | cons first rest ih =>
    rw [countFirst] at h
    split at h
    · rcases List.mem_cons.mp h with rfl | hrest
      · exact ⟨first, .head _, .inr rfl⟩
      · exact ⟨c, .tail _ hrest, .inl rfl⟩
    · rcases List.mem_cons.mp h with rfl | hrest
      · exact ⟨c, .head _, .inl rfl⟩
      · obtain ⟨old, hold, hsame⟩ := ih hrest
        exact ⟨old, .tail _ hold, hsame⟩

/-- The candidate with this number is called once more. -/
def countAt (id : Nat) (c : Candidate) : Candidate := if c.1 = id then (c.1, c.2.counted) else c

@[simp] theorem countAt_fst (id : Nat) (c : Candidate) : (countAt id c).1 = c.1 := by
  unfold countAt
  split <;> rfl

@[simp] theorem method_countAt (id : Nat) (c : Candidate) : (countAt id c).2.method = c.2.method := by
  unfold countAt
  split <;> rfl

@[simp] theorem standsIn_countAt (id : Nat) (c : Candidate) : (countAt id c).2.standsIn = c.2.standsIn := by
  unfold countAt
  split <;> rfl

private theorem ofMethod_map_countAt (id : Nat) (expected : List Candidate) (method : String) :
    ofMethod (expected.map (countAt id)) method = (ofMethod expected method).map (countAt id) := by
  simp [ofMethod, List.filter_map, Function.comp_def]

private theorem turns_map_countAt (id : Nat) (candidates : List Candidate) :
    turns (candidates.map (countAt id)) = (turns candidates).map (countAt id) := by
  simp [turns, List.filter_map, Function.comp_def]

/-- A call changes one candidate only, as their numbers differ. -/
theorem map_countAt_append (h : (before ++ c :: after).Pairwise fun a b => a.1 ≠ b.1) :
    (before ++ c :: after).map (countAt c.1) = before ++ (c.1, c.2.counted) :: after := by
  obtain ⟨-, hcons, hacross⟩ := List.pairwise_append.mp h
  obtain ⟨hafter, -⟩ := List.pairwise_cons.mp hcons
  have hother : ∀ cs : List Candidate, (∀ d ∈ cs, d.1 ≠ c.1) → cs.map (countAt c.1) = cs := fun cs hcs =>
    (List.map_congr_left fun d hd => if_neg (hcs d hd)).trans (List.map_id cs)
  rw [List.map_append, List.map_cons, hother before fun b hb => hacross b hb c (.head _),
    hother after fun a ha => (hafter a ha).symm, countAt, if_pos rfl]

/-- Candidates after so many calls, if each is called as often as it may be before the next one is. -/
def spend : Nat → List Candidate → List Candidate
  | _, [] => []
  | n, c :: rest =>
    if c.2.times = 0 then (c.1, c.2.afterCalls n) :: rest
    else (c.1, c.2.afterCalls (min n c.2.times)) :: spend (n - c.2.times) rest

@[simp] theorem spend_zero (candidates : List Candidate) : spend 0 candidates = candidates := by
  induction candidates with
  | nil => rfl
  | cons c rest ih => simp [spend, ih]

/-- One more call is taken by the first candidate that may be called. -/
theorem countFirst_spend (hawaits : ∀ c ∈ candidates, c.2.Awaits args) (n : Nat) :
    countFirst (spend n candidates) = spend (n + 1) candidates := by
  induction candidates generalizing n with
  | nil => rfl
  | cons c rest ih =>
    obtain ⟨hc, hrest⟩ := List.forall_mem_cons.mp hawaits
    by_cases hunlimited : c.2.times = 0
    · have hcallable : (c.2.afterCalls n).callable = true := (hc.callable_afterCalls n).mpr (.inl hunlimited)
      simp [spend, hunlimited, countFirst, hcallable, Expectation.counted_afterCalls]
    · by_cases hturn : n < c.2.times
      · have hcallable : (c.2.afterCalls n).callable = true := (hc.callable_afterCalls n).mpr (.inr hturn)
        have hmin : min n c.2.times = n := by omega
        have hmin' : min (n + 1) c.2.times = n + 1 := by omega
        have hleft : n - c.2.times = 0 := by omega
        have hleft' : n + 1 - c.2.times = 0 := by omega
        simp [spend, hunlimited, countFirst, hmin, hmin', hleft, hleft', hcallable, Expectation.counted_afterCalls]
      · -- the turn of `c` is over, so the call goes to the later ones
        have hexhausted := hc.not_callable_afterCalls_times (Nat.pos_of_ne_zero hunlimited)
        have hmin : min n c.2.times = c.2.times := by omega
        have hmin' : min (n + 1) c.2.times = c.2.times := by omega
        have hleft : n + 1 - c.2.times = n - c.2.times + 1 := by omega
        simp [spend, hunlimited, countFirst, hmin, hmin', hleft, hexhausted, ih hrest]

/-- How often candidates may be called in all, if each of them is limited. -/
def room (candidates : List Candidate) : Nat := (candidates.map (·.2.times)).sum

@[simp] theorem room_nil : room [] = 0 := rfl

@[simp] theorem room_cons (c : Candidate) (rest : List Candidate) : room (c :: rest) = c.2.times + room rest := by
  simp [room]

/-- When those in front have had their turns, it is the turn of the next candidate, as often as that may be called. -/
theorem spend_append (hawaits : ∀ b ∈ before, b.2.Awaits args) (hlimited : ∀ b ∈ before, 0 < b.2.times)
    (hturn : c.2.times = 0 ∨ k < c.2.times) :
    ∃ spent, (∀ b ∈ spent, b.2.callable = false) ∧
      spend (room before + k) (before ++ c :: after) = spent ++ (c.1, c.2.afterCalls k) :: after := by
  induction before with
  | nil =>
    refine ⟨[], by simp, ?_⟩
    rcases hturn with hunlimited | hlimit
    · simp [spend, hunlimited]
    · have hunlimited : c.2.times ≠ 0 := by omega
      have hmin : min k c.2.times = k := by omega
      have hleft : k - c.2.times = 0 := by omega
      simp [spend, hunlimited, hmin, hleft]
  | cons first before ih =>
    obtain ⟨hfirst, hbefore⟩ := List.forall_mem_cons.mp hawaits
    obtain ⟨hpositive, hlimited⟩ := List.forall_mem_cons.mp hlimited
    obtain ⟨spent, hspent, hspend⟩ := ih hbefore hlimited
    have hmin : min (first.2.times + room before + k) first.2.times = first.2.times := by omega
    have hleft : first.2.times + room before + k - first.2.times = room before + k := by omega
    refine ⟨(first.1, first.2.afterCalls first.2.times) :: spent,
      List.forall_mem_cons.mpr ⟨hfirst.not_callable_afterCalls_times hpositive, hspent⟩, ?_⟩
    rw [room_cons, List.cons_append, spend, if_neg (Nat.ne_of_gt hpositive), hmin, hleft, hspend, List.cons_append]

/-- When all have had their turns, none of them can be called, and each was called as often as it may be. -/
theorem spend_of_room_le (hawaits : ∀ c ∈ candidates, c.2.Awaits args) (hlimited : ∀ c ∈ candidates, 0 < c.2.times)
    (hn : room candidates ≤ n) :
    spend n candidates = candidates.map fun c => (c.1, c.2.afterCalls c.2.times) := by
  induction candidates generalizing n with
  | nil => rfl
  | cons first rest ih =>
    obtain ⟨hfirst, hrest⟩ := List.forall_mem_cons.mp hawaits
    obtain ⟨hpositive, hlimited⟩ := List.forall_mem_cons.mp hlimited
    rw [room_cons] at hn
    have hmin : min n first.2.times = first.2.times := by omega
    rw [spend, if_neg (Nat.ne_of_gt hpositive), hmin, ih hrest hlimited (by omega), List.map_cons]

/-- As long as there is room, or one candidate is not limited, it is some candidate's turn. -/
theorem exists_turn (h : (∃ c ∈ candidates, c.2.times = 0) ∨ n < room candidates) :
    ∃ before c after k, candidates = before ++ c :: after ∧ (∀ b ∈ before, 0 < b.2.times) ∧
      (c.2.times = 0 ∨ k < c.2.times) ∧ n = room before + k := by
  induction candidates generalizing n with
  | nil => simp at h
  | cons first rest ih =>
    rw [room_cons] at h
    by_cases hturn : first.2.times = 0 ∨ n < first.2.times
    · exact ⟨[], first, rest, n, rfl, by simp, hturn, by simp⟩
    · have hlater : (∃ c ∈ rest, c.2.times = 0) ∨ n - first.2.times < room rest := by
        rcases h with ⟨c, hc, hunlimited⟩ | hlt
        · rcases List.mem_cons.mp hc with rfl | hrest
          · exact absurd (.inl hunlimited) hturn
          · exact .inl ⟨c, hrest, hunlimited⟩
        · exact .inr (by omega)
      obtain ⟨before, c, after, k, rfl, hlimited, hc, hn⟩ := ih hlater
      have hfirst : 0 < first.2.times := Nat.pos_of_ne_zero fun hzero => hturn (.inl hzero)
      have hsum : n = room (first :: before) + k := by
        rw [room_cons]
        omega
      exact ⟨first :: before, c, after, k, rfl, List.forall_mem_cons.mpr ⟨hfirst, hlimited⟩, hc, hsum⟩

theorem room_turns (candidates : List Candidate) : room (turns candidates) = room candidates :=
  ((turns_perm candidates).map _).sum_nat

section Select

variable {expected : List Candidate} {method : String}

/-- Of candidates in which the arguments match, the first in the order of turns that may be called is selected. -/
theorem select_of_turns (hcoherent : ∀ c ∈ ofMethod expected method, c.2.Coherent)
    (hmatch : ∀ c ∈ ofMethod expected method, c.2.mismatches args = 0) (log : MatchLog)
    (hsplit : turns (ofMethod expected method) = before ++ c :: after)
    (hbefore : ∀ b ∈ before, b.2.callable = false) (hc : c.2.callable = true) :
    (select log expected method args).1 = .ok c.1 := by
  have hanswers : ∀ d ∈ ofMethod expected method, (!d.2.standsIn && d.2.callable) = true ↔ d.2.Answers args :=
    fun d hd => (Expectation.answers_iff_of_mismatches (hcoherent d hd) (hmatch d hd)).symm
  have hfirst : (turns (ofMethod expected method)).find? (fun d => d.2.callable) = some c := by
    rw [hsplit, List.find?_eq_some_iff_append]
    exact ⟨hc, before, after, rfl, fun b hb => by simp [hbefore b hb]⟩
  simp only [turns, List.find?_append, List.find?_filter, Bool.decide_and, Bool.decide_eq_true] at hfirst
  rw [select_eq_ok_iff_isFirst hcoherent]
  cases hfound : (ofMethod expected method).find? fun d => !d.2.standsIn && d.2.callable with
  | some d =>
    rw [hfound, Option.some_or, Option.some.injEq] at hfirst
    subst hfirst
    exact .inl ⟨d.2, (find?_eq_some_iff_isFirst (p := fun e => !e.standsIn && e.callable) hanswers d).mp hfound⟩
  | none =>
    rw [hfound, Option.none_or] at hfirst
    refine .inr ⟨fun d hd hanswer => ?_, c.2, ?_⟩
    · exact absurd ((hanswers d hd).mpr hanswer) (List.find?_eq_none.mp hfound d hd)
    · exact (find?_eq_some_iff_isFirst (p := fun e => e.standsIn && e.callable)
        (fun d _ => Expectation.delegates_iff_standsIn.symm) c).mp hfirst

/-- If none of the candidates may be called any more, the call is refused for the one registered first. -/
theorem select_of_exhausted {first : Candidate} {rest : List Candidate}
    (hcoherent : ∀ c ∈ ofMethod expected method, c.2.Coherent)
    (hmatch : ∀ c ∈ ofMethod expected method, c.2.mismatches args = 0) (log : MatchLog)
    (hfirst : ofMethod expected method = first :: rest)
    (hnone : ∀ c ∈ ofMethod expected method, c.2.callable = false) :
    (select log expected method args).1 = .error (first.2.tooManyCalls (select log expected method args).2) := by
  have hrefused : ∀ c ∈ ofMethod expected method, ¬c.2.Answers args ∧ ¬c.2.Delegates := fun c hc =>
    have hnot : c.2.callable ≠ true := by simp [hnone c hc]
    ⟨fun h => hnot h.1, fun h => hnot h.1⟩
  rw [select_of_none hcoherent log hrefused]
  refine congrArg Except.error ?_
  rcases failure_cases hcoherent hrefused (firstMatch args log (ofMethod expected method)).2 _ method with
    ⟨hempty, -⟩ | ⟨c, ⟨before, after, hsplit, -, hbefore⟩, -, hnotice⟩ | ⟨-, hmismatch, -⟩
  · rw [hfirst] at hempty
    cases hempty
  · cases before with
    | nil =>
      rw [hfirst] at hsplit
      obtain rfl : first = c := (List.cons.inj hsplit).1
      exact hnotice
    | cons b before =>
      have hb : b ∈ ofMethod expected method := by simp [hsplit]
      exact absurd (hmatch b hb) (hbefore b (.head _))
  · have hmem : first ∈ ofMethod expected method := by simp [hfirst]
    exact absurd (hmatch first hmem) (hmismatch first hmem)

end Select

end TraitMock.Selection

namespace TraitMock.Session

open Selection

variable {s t : Session} {m : Nat} {method : String} {args : Arguments} {c : Candidate}

theorem SameBooks.expected_eq (h : SameBooks s t) (m : Nat) : t.expected m = s.expected m := by
  rw [Session.expected_eq, Session.expected_eq, h.registered m]
  simp only [expectation?, h.expectations]

/-- The numbers of the expectations of a mock differ. -/
theorem Sound.pairwise_expected (hs : s.Sound) (m : Nat) : (s.expected m).Pairwise fun a b => a.1 ≠ b.1 := by
  rw [expected_eq]
  refine List.Pairwise.filterMap _ (fun i j hij a ha b hb => ?_) (hs.ordered m)
  obtain ⟨-, -, rfl⟩ := Option.map_eq_some_iff.mp ha
  obtain ⟨-, -, rfl⟩ := Option.map_eq_some_iff.mp hb
  exact Nat.ne_of_lt hij

/-- A number stands for one expectation of a mock. -/
theorem eq_of_mem_expected {a b : Candidate} (ha : a ∈ s.expected m) (hb : b ∈ s.expected m) (hid : a.1 = b.1) :
    a = b := by
  have hfound := (mem_expected.mp ha).2
  rw [hid, (mem_expected.mp hb).2] at hfound
  exact Prod.ext hid (Option.some.inj hfound).symm

/-- One more call of an expectation changes it where it stands among the others, and nothing else. -/
theorem Picks.expected_answered (h : s.Picks m method args c.1 c.2) (hmet : s.unmet c.2 = []) (n : Nat) :
    (s.call m method args).1.expected n =
      (s.expected n).map (countAt c.1) := by
  obtain ⟨hexp, hreg, -⟩ := h.answered_books hmet
  rw [expected_eq, expected_eq, hreg, List.map_filterMap]
  refine List.filterMap_congr fun id _ => ?_
  rw [expectation?_of_set hexp h.found]
  by_cases hid : id = c.1
  · rw [if_pos hid, hid, h.found]
    simp [countAt]
  · rw [if_neg hid]
    cases s.expectation? id <;> simp [countAt, hid]

/-- A mock's expectations of a method, without prerequisites and with patterns that match the arguments. -/
structure Matched (s : Session) (m : Nat) (method : String) (args : Arguments) : Prop where
  sound : s.Sound
  coherent : s.Coherent
  requires : ∀ c ∈ ofMethod (s.expected m) method, c.2.requires = []
  mismatches : ∀ c ∈ ofMethod (s.expected m) method, c.2.mismatches args = 0

theorem Matched.coherent_named (h : s.Matched m method args) : ∀ c ∈ ofMethod (s.expected m) method, c.2.Coherent :=
  fun c hc => h.coherent c.1 c.2 (mem_expected.mp (mem_ofMethod.mp hc).1).2

theorem Matched.unmet_eq_nil (h : s.Matched m method args) (hc : c ∈ ofMethod (s.expected m) method) :
    s.unmet c.2 = [] :=
  unmet_eq_nil_iff.mpr fun r hr => by simp [h.requires c hc] at hr

/-- The call goes to the first expectation in the order of turns that may be called. -/
theorem Matched.picks (h : s.Matched m method args) {before after : List Candidate}
    (hsplit : turns (ofMethod (s.expected m) method) = before ++ c :: after)
    (hbefore : ∀ b ∈ before, b.2.callable = false) (hc : c.2.callable = true) : s.Picks m method args c.1 c.2 := by
  have hmem : c ∈ ofMethod (s.expected m) method := mem_turns.mp (by simp [hsplit])
  obtain ⟨hexpected, hmethod⟩ := mem_ofMethod.mp hmem
  obtain ⟨hregistered, hfound⟩ := mem_expected.mp hexpected
  exact ⟨select_of_turns h.coherent_named h.mismatches s.log hsplit hbefore hc, hregistered, hfound, hmethod, hc⟩

/-- If no expectation may be called any more, the call is refused for the one registered first. -/
theorem Matched.call_of_exhausted (h : s.Matched m method args) {first : Candidate} {rest : List Candidate}
    (hfirst : ofMethod (s.expected m) method = first :: rest)
    (hnone : ∀ c ∈ ofMethod (s.expected m) method, c.2.callable = false) :
    (s.call m method args).2 = .rejected (first.2.tooManyCalls (s.selectionLog m method args)) := by
  rw [call_of_select_error (select_of_exhausted h.coherent_named h.mismatches s.log hfirst hnone)]
  rfl

/-- If no expectation may be called any more, the call changes none. -/
theorem sameBooks_call_of_exhausted (hnone : ∀ c ∈ ofMethod (s.expected m) method, c.2.callable = false)
    (args : Arguments) : SameBooks s (s.call m method args).1 := by
  rcases call_cases s m method args with ⟨n, hcall⟩ | ⟨id, e, hpicks, -⟩
  · have hstart : SameBooks s { s.helper with log := s.selectionLog m method args } := .of_eq rfl rfl
    rw [hcall]
    exact hstart.trans (sameBooks_reject n)
  · have hmem : (id, e) ∈ ofMethod (s.expected m) method :=
      mem_ofMethod.mpr ⟨mem_expected.mpr ⟨hpicks.registered, hpicks.found⟩, hpicks.method_eq⟩
    exact absurd hpicks.callable (by simp [hnone _ hmem])

/-- A call is counted by the first expectation in the order of turns that may be called, if there is one. -/
theorem Matched.expected_call (h : s.Matched m method args) :
    turns (ofMethod ((s.call m method args).1.expected m) method) =
        countFirst (turns (ofMethod (s.expected m) method)) ∧
      (ofMethod ((s.call m method args).1.expected m) method).map (·.1) =
        (ofMethod (s.expected m) method).map (·.1) := by
  cases hfirst : (turns (ofMethod (s.expected m) method)).find? fun c => c.2.callable with
  | some c =>
    obtain ⟨hc, before, after, hsplit, hbefore⟩ := List.find?_eq_some_iff_append.mp hfirst
    have hbefore : ∀ b ∈ before, b.2.callable = false := fun b hb => by simpa using hbefore b hb
    have hmem : c ∈ ofMethod (s.expected m) method := mem_turns.mp (by simp [hsplit])
    have hdiffer : (turns (ofMethod (s.expected m) method)).Pairwise fun a b => a.1 ≠ b.1 :=
      (turns_perm _).symm.pairwise ((h.sound.pairwise_expected m).filter _) Ne.symm
    rw [(h.picks hsplit hbefore hc).expected_answered (h.unmet_eq_nil hmem) m, ofMethod_map_countAt, turns_map_countAt]
    constructor
    · rw [hsplit, countFirst_of_isFirst hbefore hc]
      rw [hsplit] at hdiffer
      exact map_countAt_append hdiffer
    · simp [Function.comp_def]
  | none =>
    have hnone : ∀ c ∈ ofMethod (s.expected m) method, c.2.callable = false := fun c hc => by
      simpa using List.find?_eq_none.mp hfirst c (mem_turns.mpr hc)
    have hbooks := sameBooks_call_of_exhausted hnone args
    rw [hbooks.expected_eq m, countFirst_of_none fun c hc => hnone c (mem_turns.mp hc)]
    exact ⟨rfl, rfl⟩

theorem Matched.call (h : s.Matched m method args) : (s.call m method args).1.Matched m method args := by
  have horigin : ∀ c ∈ ofMethod ((s.call m method args).1.expected m) method,
      ∃ old ∈ ofMethod (s.expected m) method, c = old ∨ c = (old.1, old.2.counted) := by
    intro c hc
    rw [← mem_turns, h.expected_call.1] at hc
    obtain ⟨old, hold, hsame⟩ := mem_countFirst hc
    exact ⟨old, mem_turns.mp hold, hsame⟩
  refine ⟨(change s (.call m method args)).sound h.sound, h.coherent.after (.call m method args), ?_, ?_⟩
  · intro c hc
    obtain ⟨old, hold, rfl | rfl⟩ := horigin c hc
    · exact h.requires c hold
    · exact h.requires old hold
  · intro c hc
    obtain ⟨old, hold, rfl | rfl⟩ := horigin c hc
    · exact h.mismatches c hold
    · exact h.mismatches old hold

/-- The session after several calls of a method with the same arguments. -/
def called (s : Session) (m : Nat) (method : String) (args : Arguments) (n : Nat) : Session :=
  s.run (List.replicate n (.call m method args))

private theorem called_succ (s : Session) (m : Nat) (method : String) (args : Arguments) (n : Nat) :
    s.called m method args (n + 1) = ((s.called m method args n).call m method args).1 := by
  rw [called, List.replicate_succ', run_append]
  rfl

/-- After several calls the expectations have taken them in turn. -/
theorem Matched.called (h : s.Matched m method args)
    (hawaits : ∀ c ∈ ofMethod (s.expected m) method, c.2.Awaits args) (n : Nat) :
    (s.called m method args n).Matched m method args ∧
      turns (ofMethod ((s.called m method args n).expected m) method) =
        spend n (turns (ofMethod (s.expected m) method)) ∧
      (ofMethod ((s.called m method args n).expected m) method).map (·.1) =
        (ofMethod (s.expected m) method).map (·.1) := by
  induction n with
  | zero => exact ⟨h, (spend_zero _).symm, rfl⟩
  | succ n ih =>
    obtain ⟨hmatched, hturns, hids⟩ := ih
    obtain ⟨hnext, hsame⟩ := hmatched.expected_call
    rw [called_succ]
    refine ⟨hmatched.call, ?_, hsame.trans hids⟩
    rw [hnext, hturns, countFirst_spend fun c hc => hawaits c (mem_turns.mp hc)]

/-- A call is answered by an expectation, as that is set up. -/
structure AnsweredBy (s : Session) (m : Nat) (method : String) (args : Arguments) (id : Nat) (e : Expectation) :
    Prop where
  picks : s.Picks m method args id e
  replied : (s.call m method args).2 = .ofAnswer (e.answer (s.selectionLog m method args) args)

/-- A call is refused as one too many of an expectation that may be called so often. -/
def RefusedAsExtra (s : Session) (m : Nat) (method : String) (args : Arguments) (times : Nat) : Prop :=
  ∃ n, (s.call m method args).2 = .rejected n ∧ n.header = Notice.tooManyCalls ∧
    n.get? "want" = some (toString times) ∧ n.get? "have" = some (toString (times + 1))

/-- The call that follows as many calls as those in front may have is taken by the next expectation. -/
theorem Matched.answeredBy_of_turn (h : s.Matched m method args) {before after : List Candidate} {k : Nat}
    (hawaits : ∀ c ∈ ofMethod (s.expected m) method, c.2.Awaits args)
    (hsplit : turns (ofMethod (s.expected m) method) = before ++ c :: after) (hlimited : ∀ b ∈ before, 0 < b.2.times)
    (hturn : c.2.times = 0 ∨ k < c.2.times) :
    (s.called m method args (room before + k)).AnsweredBy m method args c.1 (c.2.afterCalls k) := by
  have hall : ∀ d ∈ before ++ c :: after, d.2.Awaits args := fun d hd => hawaits d (mem_turns.mp (hsplit ▸ hd))
  obtain ⟨hmatched, hturns, -⟩ := h.called hawaits (room before + k)
  obtain ⟨spent, hspent, hspend⟩ : ∃ spent, (∀ b ∈ spent, b.2.callable = false) ∧
      spend (room before + k) (before ++ c :: after) = spent ++ (c.1, c.2.afterCalls k) :: after :=
    spend_append (fun b hb => hall b (by simp [hb])) hlimited hturn
  rw [hsplit, hspend] at hturns
  have hcallable := ((hall c (by simp)).callable_afterCalls k).mpr hturn
  have hpicks := hmatched.picks hturns hspent hcallable
  have hmem : (c.1, c.2.afterCalls k) ∈ ofMethod ((s.called m method args (room before + k)).expected m) method :=
    mem_turns.mp (by simp [hturns])
  exact ⟨hpicks, congrArg Prod.snd (hpicks.call_eq (hmatched.unmet_eq_nil hmem))⟩

/-- When each expectation was called as often as it may be, further calls are refused for the one registered first. -/
theorem Matched.refused_of_room_le (h : s.Matched m method args) {first : Candidate} {rest : List Candidate} {n : Nat}
    (hawaits : ∀ c ∈ ofMethod (s.expected m) method, c.2.Awaits args)
    (hfirst : ofMethod (s.expected m) method = first :: rest)
    (hlimited : ∀ c ∈ ofMethod (s.expected m) method, 0 < c.2.times)
    (hn : room (ofMethod (s.expected m) method) ≤ n) :
    (s.called m method args n).RefusedAsExtra m method args first.2.times := by
  obtain ⟨hmatched, hturns, hids⟩ := h.called hawaits n
  rw [spend_of_room_le (fun c hc => hawaits c (mem_turns.mp hc)) (fun c hc => hlimited c (mem_turns.mp hc))
    (by rwa [room_turns])] at hturns
  -- all expectations are those of the start, called as often as they may be
  have hspent : ∀ d ∈ ofMethod ((s.called m method args n).expected m) method,
      ∃ old ∈ ofMethod (s.expected m) method, d = (old.1, old.2.afterCalls old.2.times) := by
    intro d hd
    rw [← mem_turns, hturns] at hd
    obtain ⟨old, hold, rfl⟩ := List.mem_map.mp hd
    exact ⟨old, mem_turns.mp hold, rfl⟩
  have hnone : ∀ d ∈ ofMethod ((s.called m method args n).expected m) method, d.2.callable = false := by
    intro d hd
    obtain ⟨old, hold, rfl⟩ := hspent d hd
    exact (hawaits old hold).not_callable_afterCalls_times (hlimited old hold)
  rw [hfirst] at hids
  obtain ⟨now, rest', hnow, hid, -⟩ := List.map_eq_cons_iff.mp hids
  obtain ⟨old, hold, rfl⟩ := hspent now (by simp [hnow])
  -- the numbers of the expectations tell that this one is the first
  have hmem : first ∈ ofMethod (s.expected m) method := by simp [hfirst]
  obtain rfl : old = first := eq_of_mem_expected (mem_ofMethod.mp hold).1 (mem_ofMethod.mp hmem).1 hid
  obtain ⟨hwant, hhave⟩ := get?_tooManyCalls (old.2.afterCalls old.2.times)
    ((s.called m method args n).selectionLog m method args)
  have hcount : (old.2.afterCalls old.2.times).count = old.2.times := by
    simp [Expectation.afterCalls, (hawaits old hold).count]
  rw [hcount] at hhave
  exact ⟨_, hmatched.call_of_exhausted hnow hnone, tooManyCalls_header _ _, hwant, hhave⟩

private theorem matched_of_awaits (acts : List Act)
    (hawaits : ∀ c ∈ ofMethod ((run {} acts).expected m) method, c.2.Awaits args) :
    (run {} acts).Matched m method args where
  sound := sound_run acts
  coherent := run_keeps acts coherent_empty fun _ a h => h.after a
  requires c hc := (hawaits c hc).requires
  mismatches c hc := (hawaits c hc).mismatches

/-- Calls with arguments that match all expectations of the method, which have no prerequisites and were not called
    before, are taken in turn: by the first one that is no proxy without a pattern as often as that may be called, then
    by the next one, and after these by the proxies without a pattern. Each call is answered as long as there is room or
    if one of the expectations is not limited; all later ones are refused for the one that was registered first. -/
theorem calls_are_taken_in_turn (acts : List Act) (m : Nat) (method : String) (args : Arguments)
    (hawaits : ∀ c ∈ ofMethod ((run {} acts).expected m) method, c.2.Awaits args) :
    (∀ before c after k, turns (ofMethod ((run {} acts).expected m) method) = before ++ c :: after →
      (∀ b ∈ before, 0 < b.2.times) → (c.2.times = 0 ∨ k < c.2.times) →
      ((run {} acts).called m method args (room before + k)).AnsweredBy m method args c.1 (c.2.afterCalls k)) ∧
    (∀ first rest, ofMethod ((run {} acts).expected m) method = first :: rest →
      (∀ c ∈ first :: rest, 0 < c.2.times) → ∀ n, room (first :: rest) ≤ n →
      ((run {} acts).called m method args n).RefusedAsExtra m method args first.2.times) ∧
    ∀ n, (∃ c ∈ ofMethod ((run {} acts).expected m) method, c.2.times = 0) ∨
        n < room (ofMethod ((run {} acts).expected m) method) →
      (((run {} acts).called m method args n).call m method args).2.isRejected = false := by
  have hmatched := matched_of_awaits acts hawaits
  refine ⟨fun before c after k hsplit hlimited hturn => hmatched.answeredBy_of_turn hawaits hsplit hlimited hturn,
    fun first rest hfirst hlimited n hn => ?_, fun n hn => ?_⟩
  · rw [← hfirst] at hlimited hn
    exact hmatched.refused_of_room_le hawaits hfirst hlimited hn
  · rw [← room_turns] at hn
    have hroom : (∃ c ∈ turns (ofMethod ((run {} acts).expected m) method), c.2.times = 0) ∨
        n < room (turns (ofMethod ((run {} acts).expected m) method)) :=
      hn.imp_left fun ⟨c, hc, hunlimited⟩ => ⟨c, mem_turns.mpr hc, hunlimited⟩
    obtain ⟨before, c, after, k, hsplit, hlimited, hturn, rfl⟩ := exists_turn hroom
    rw [(hmatched.answeredBy_of_turn hawaits hsplit hlimited hturn).replied]
    exact Reply.isRejected_ofAnswer _

/-- What gives back the arguments of a call. -/
def echo : Proxy :=
  ⟨some "Get", { typeName := "shop::echo", params := [.value], run := fun _ _ values => .ok values }⟩

/-- A proxy that may be called once, a pattern that may be called twice, and any arguments once. -/
def gets : List Act :=
  [.newMock false, .answerWith 0 echo "get.rs:1", .configure 0 (.times 1), .on 0 "Get" [.text "a"] "get.rs:2",
    .configure 1 (.times 2), .onAny 0 "Get" "get.rs:3", .configure 2 (.times 1)]

/-- The three expectations of `gets`. -/
def getOfProxy : Expectation := { owner := 0, method := "Get", location := "get.rs:1", proxy? := some echo, times := 1 }

def getOfText : Expectation :=
  { owner := 0, method := "Get", location := "get.rs:2", pattern? := some [.text "a"], times := 2 }

def getOfAny : Expectation :=
  { owner := 0, method := "Get", location := "get.rs:3", anyArguments := true, times := 1 }

private theorem awaits_gets : ∀ c ∈ ofMethod ((run {} gets).expected 0) "Get", c.2.Awaits [.text "a"] := by
  have hgets : ofMethod ((run {} gets).expected 0) "Get" = [(0, getOfProxy), (1, getOfText), (2, getOfAny)] := rfl
  have hmatch : getOfText.mismatches [.text "a"] = 0 := by
    simp only [Expectation.mismatches, getOfText, Arguments.failures_diff_eq]
    decide
  intro c hc
  rw [hgets] at hc
  simp only [List.mem_cons, List.not_mem_nil, or_false] at hc
  rcases hc with rfl | rfl | rfl
  · exact ⟨rfl, rfl, rfl⟩
  · exact ⟨rfl, rfl, hmatch⟩
  · exact ⟨rfl, rfl, rfl⟩

/-- The second call is the second one of the text, the fourth one is left to the proxy, and the fifth is refused. -/
theorem turns_of_gets :
    ((run {} gets).called 0 "Get" [.text "a"] 1).AnsweredBy 0 "Get" [.text "a"] 1 (getOfText.afterCalls 1) ∧
      ((run {} gets).called 0 "Get" [.text "a"] 3).AnsweredBy 0 "Get" [.text "a"] 0 getOfProxy ∧
      ((run {} gets).called 0 "Get" [.text "a"] 4).RefusedAsExtra 0 "Get" [.text "a"] 1 := by
  obtain ⟨htaken, hrefused, -⟩ := calls_are_taken_in_turn gets 0 "Get" [.text "a"] awaits_gets
  refine ⟨?_, ?_, ?_⟩
  · exact htaken [] (1, getOfText) [(2, getOfAny), (0, getOfProxy)] 1 rfl (by simp) (.inr (by decide))
  · have hlast := htaken [(1, getOfText), (2, getOfAny)] (0, getOfProxy) [] 0 rfl (by simp [getOfText, getOfAny])
      (.inr (by decide))
    rwa [Expectation.afterCalls_zero] at hlast
  · exact hrefused (0, getOfProxy) [(1, getOfText), (2, getOfAny)] rfl
      (by simp [getOfProxy, getOfText, getOfAny]) 4 (by decide)

end TraitMock.Session
