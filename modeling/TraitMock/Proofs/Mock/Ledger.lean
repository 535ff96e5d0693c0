import TraitMock.Proofs.Mock.Evolution

namespace TraitMock.Session

variable {s t : Session} {a : Act}

/-- Whether an expectation was registered with a mock for a method. -/
def isFor (m : Nat) (method : String) (e : Expectation) : Bool := e.owner == m && e.method == method

/-- How often some expectations were called, all together. -/
def countAll : List Expectation → Nat
  | [] => 0
  | e :: rest => e.count + countAll rest

private theorem countAll_append (xs ys : List Expectation) : countAll (xs ++ ys) = countAll xs + countAll ys := by
  induction xs with
  | nil => simp [countAll]
  | cons e xs ih =>
    rw [List.cons_append, countAll, countAll, ih]
    omega

/-- How often the expectations ever registered with a mock for a method were called, all together. -/
def totalCount (s : Session) (m : Nat) (method : String) : Nat := countAll (s.expectations.filter (isFor m method))

/-- The calls of a run that a mock answered, with their arguments, in order. -/
def answeredCalls (s : Session) (acts : List Act) (m : Nat) : List (String × Arguments) :=
  ((s.replies acts).filter fun r => r.mock == m && !r.reply.isRejected).map fun r => (r.method, r.args)

/-- Replacing an expectation changes the number of calls by those of this expectation. -/
theorem countAll_set {expectations : List Expectation} {p : Expectation → Bool} {id : Nat} {e e' : Expectation}
    (hfound : expectations[id]? = some e) (hp : p e' = p e) :
    countAll ((expectations.set id e').filter p) + (if p e then e.count else 0) =
      countAll (expectations.filter p) + if p e then e'.count else 0 := by
  induction expectations generalizing id with
  | nil => simp at hfound
  | cons first rest ih =>
    cases id with
    | zero =>
      obtain rfl : first = e := by simpa using hfound
      cases hfirst : p first with
      | true =>
        simp only [List.set_cons_zero, List.filter_cons, hp, hfirst, if_true, countAll]
        omega
      | false => simp [hp, hfirst]
    | succ id =>
      have hrest := ih (by simpa using hfound)
      cases hfirst : p first with
      | true =>
        simp only [List.set_cons_succ, List.filter_cons, hfirst, if_true, countAll]
        omega
      | false => simpa [hfirst] using hrest

theorem totalCount_of_set (m : Nat) (method : String) {id : Nat} {e e' : Expectation}
    (hfound : s.expectation? id = some e) (hexp : t.expectations = s.expectations.set id e')
    (hfor : isFor m method e' = isFor m method e) :
    t.totalCount m method + (if isFor m method e then e.count else 0) =
      s.totalCount m method + if isFor m method e then e'.count else 0 := by
  unfold totalCount
  rw [hexp]
  exact countAll_set hfound hfor

/-- A counted call adds one to the calls of its method that its mock expected, and to no others. -/
theorem totalCount_of_counted (m : Nat) (method : String) {id : Nat} {e : Expectation}
    (hfound : s.expectation? id = some e) (hexp : t.expectations = s.expectations.set id e.counted) :
    t.totalCount m method = s.totalCount m method + if m = e.owner ∧ method = e.method then 1 else 0 := by
  have htotal := totalCount_of_set m method hfound hexp rfl
  have hcounted : e.counted.count = e.count + 1 := rfl
  have hfor : isFor m method e = true ↔ m = e.owner ∧ method = e.method := by
    rw [isFor, Bool.and_eq_true, beq_iff_eq, beq_iff_eq, eq_comm, @eq_comm _ method]
  rw [hcounted] at htotal
  simp only [hfor] at htotal
  split at htotal
  · rename_i hcall
    rw [if_pos hcall]
    omega
  · rename_i hcall
    rw [if_neg hcall]
    omega

/-- The calls of each method that a mock recorded are as many as its expectations of that method counted. -/
def Balanced (s : Session) : Prop :=
  ∀ m method, (s.ledger m).countP (·.1 == method) = s.totalCount m method

private theorem balanced_empty : Balanced {} := fun _ _ => rfl

theorem Change.balanced (h : Change s a t) (hs : s.Sound) (hb : s.Balanced) : t.Balanced := by
  intro m method
  have hbefore := hb m method
  cases h with
  | same hbooks _ =>
    rw [hbooks.ledger m, hbefore]
    simp only [totalCount, hbooks.expectations]
  | registered e hact _ hexp _ hledger =>
    have hnew := Act.isNew_of_registered? hact
    rw [hledger m, hbefore]
    unfold totalCount
    rw [hexp, List.filter_append, countAll_append]
    cases hfor : isFor m method e <;> simp [hfor, countAll, hnew.count]
  | configured e e' hfound happly hexp _ hledger =>
    have happlied := Expectation.applied_of_apply happly
    have hfor : isFor m method e' = isFor m method e := by
      rw [isFor, isFor, happlied.owner_eq, happlied.method_eq]
    have htotal := totalCount_of_set m method hfound hexp hfor
    rw [happlied.count_eq] at htotal
    rw [hledger m, hbefore]
    omega
  | unset hexp _ hledger =>
    rw [hledger m, hbefore]
    simp only [totalCount, hexp]
  | @answered n id called args _ e _ hpicks _ _ _ hexp _ hledger =>
    obtain ⟨now, hnow, howner⟩ := hs.owned n id hpicks.registered
    obtain rfl : now = e := Option.some.inj (hnow.symm.trans hpicks.found)
    have hentry : List.countP (·.1 == method) (if m = n then [(called, args)] else []) =
        if m = n ∧ method = called then 1 else 0 := by
      by_cases hm : m = n
      · simp [hm, @eq_comm _ method]
      · simp [hm]
    rw [hledger m, List.countP_append, hbefore, hentry, totalCount_of_counted m method hpicks.found hexp, howner,
      hpicks.method_eq]

private theorem balanced_run (acts : List Act) : (run {} acts).Balanced := by
  have hboth : (run {} acts).Sound ∧ (run {} acts).Balanced :=
    run_keeps (P := fun s => s.Sound ∧ s.Balanced) acts ⟨sound_empty, balanced_empty⟩
      fun s a ⟨hs, hb⟩ => ⟨(change s a).sound hs, (change s a).balanced hs hb⟩
  exact hboth.2

/-- An act adds to the ledger of a mock just the call that it answers. -/
theorem Change.ledger_eq (h : Change s a t) (m : Nat) :
    t.ledger m = s.ledger m ++
      ((s.replied a).filter fun r => r.mock == m && !r.reply.isRejected).map fun r => (r.method, r.args) := by
  cases h with
  | same hbooks hrejected =>
    have hnone : (s.replied a).filter (fun r => r.mock == m && !r.reply.isRejected) = [] := by
      rw [List.filter_eq_nil_iff]
      intro r hr
      simp [hrejected r hr]
    rw [hnone, hbooks.ledger m, List.map_nil, List.append_nil]
  | registered _ _ hsilent _ _ hledger => simp [hsilent, hledger m]
  | configured _ _ _ _ _ _ hledger => simp [replied, hledger m]
  | unset _ _ hledger => simp [replied, hledger m]
  | @answered n _ method args _ _ reply _ _ hreplied hanswered _ _ hledger =>
    rw [hledger m, hreplied]
    by_cases hm : m = n
    · simp [hm, hanswered]
    · simp [hm, Ne.symm hm]

private theorem ledger_run (s : Session) (acts : List Act) (m : Nat) :
    (s.run acts).ledger m = s.ledger m ++ s.answeredCalls acts m := by
  induction acts generalizing s with
  | nil => simp [answeredCalls, replies]
  | cons a acts ih =>
    rw [run_cons, ih, (change s a).ledger_eq m]
    simp [answeredCalls, replies]

private theorem countP_calls (s : Session) (m : Nat) (method : String) :
    (s.calls m).countP (·.method == method) = (s.ledger m).countP (·.1 == method) := by
  rw [ledger, List.countP_map]
  rfl

/-- The check of a number of calls succeeds just when that many calls of the method were recorded. -/
theorem assertCallCount_eq_true_iff {m want : Nat} {method : String} :
    (s.assertCallCount m method want).2 = true ↔ (s.calls m).countP (·.method == method) = want := by
  have hcalls : s.helper.calls m = s.calls m := rfl
  unfold assertCallCount
  dsimp only
  rw [hcalls]
  split <;> simp_all

/-- After every run a mock has recorded, in order, exactly the calls that it answered with the arguments they were
    made with, however they ended. Of each method it recorded as many calls as all the expectations ever registered
    with it for that method counted, which is the number that a check of the calls succeeds for. -/
theorem calls_are_the_answered_ones (acts : List Act) (m : Nat) :
    ((run {} acts).calls m).map (fun c => (c.method, c.args)) = answeredCalls {} acts m ∧
    ∀ method,
      ((run {} acts).calls m).countP (·.method == method) = (run {} acts).totalCount m method ∧
      ∀ want, ((run {} acts).assertCallCount m method want).2 = true ↔
        (run {} acts).totalCount m method = want := by
  refine ⟨?_, fun method => ?_⟩
  · have hledger := ledger_run {} acts m
    have hempty : ledger {} m = [] := rfl
    rw [hempty, List.nil_append] at hledger
    exact hledger
  · have hcount : ((run {} acts).calls m).countP (·.method == method) = (run {} acts).totalCount m method := by
      rw [countP_calls]
      exact balanced_run acts m method
    refine ⟨hcount, fun want => ?_⟩
    rw [assertCallCount_eq_true_iff, hcount]

end TraitMock.Session
