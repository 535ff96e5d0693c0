import TraitMock.Proofs.Mock.Notes
import TraitMock.Proofs.Mock.Ledger
import TraitMock.Proofs.Mock.Places

namespace TraitMock.Session

variable {s t s' t' : Session} {m : Nat} {method : String} {a : Act}

/-- The place of an expectation among those of a method of mock `m`, those that were taken off it included. -/
def place (s : Session) (m : Nat) (method : String) (id : Nat) : Nat := rank (isFor m method) s.expectations id

/-- Whether a number is that of an expectation of a method of mock `m`. -/
def isOwn (s : Session) (m : Nat) (method : String) (id : Nat) : Bool :=
  (s.expectation? id).any (isFor m method)

theorem isFor_iff {e : Expectation} : isFor m method e = true ↔ e.owner = m ∧ e.method = method := by
  simp [isFor]

theorem isOwn_of_found {id : Nat} {e : Expectation} (hfound : s.expectation? id = some e) :
    s.isOwn m method id = isFor m method e := by
  simp [isOwn, hfound]

theorem isOwn_iff {id : Nat} :
    s.isOwn m method id = true ↔ ∃ e, s.expectation? id = some e ∧ isFor m method e = true := by
  unfold isOwn
  cases s.expectation? id <;> simp

/-- How a call was answered. -/
inductive Outcome where
  /-- By the expectation at this place. -/
  | answered (place : Nat) (reply : Reply)
  | refused (header : String)

/-- The outcome of a call. -/
def outcome (s : Session) (m : Nat) (method : String) (args : Arguments) : Outcome :=
  match (s.choose m method args).1 with
  | .ok id => .answered (s.place m method id) (s.call m method args).2
  | .error n => .refused n.header

/-- The outcome of an act that is a call of a method of mock `m`. -/
def outcomeOf (s : Session) (m : Nat) (method : String) : Act → List Outcome
  | .call n called args => if n = m ∧ called = method then [s.outcome m method args] else []
  | _ => []

/-- The outcomes of the calls of a method of mock `m` in a run, in order. -/
def outcomes (s : Session) (m : Nat) (method : String) : List Act → List Outcome
  | [] => []
  | a :: rest => s.outcomeOf m method a ++ (s.after a).outcomes m method rest

/-- What an act does that concerns a method of mock `m`, if anything, with expectations known by their places. -/
def concern (s : Session) (m : Nat) (method : String) (a : Act) : List Act :=
  match a with
  | .newMock _ => [a]
  | .on .. | .onAny .. | .answerWith .. => if a.registered?.any (isFor m method) then [a] else []
  | .configure id setting => if s.isOwn m method id then [.configure (s.place m method id) setting] else []
  | .unset n id => if n = m ∧ s.isOwn m method id then [.unset m (s.place m method id)] else []
  | .call n called _ => if n = m ∧ called = method then [a] else []
  | _ => []

/-- The run restricted to what concerns a method of mock `m`. -/
def concerning (s : Session) (m : Nat) (method : String) : List Act → List Act
  | [] => []
  | a :: rest => s.concern m method a ++ (s.after a).concerning m method rest

private theorem outcomes_append (acts later : List Act) :
    s.outcomes m method (acts ++ later) = s.outcomes m method acts ++ (s.run acts).outcomes m method later := by
  induction acts generalizing s with
  | nil => rfl
  | cons a acts ih => rw [List.cons_append, outcomes, ih, outcomes, run_cons, List.append_assoc]

/-- The outcome of a call that is refused is the header of its notice. -/
theorem outcome_of_rejected {args : Arguments} {n : Notice} (h : (s.call m method args).2 = .rejected n) :
    s.outcome m method args = .refused n.header := by
  have hhelper : s.helper.choose m method args = s.choose m method args := rfl
  unfold call at h
  unfold outcome
  dsimp only at h
  rw [hhelper] at h
  rcases hchoose : s.choose m method args with ⟨chosen, log⟩
  rw [hchoose] at h
  cases chosen with
  | error n' =>
    obtain rfl : n' = n := by simpa using h
    rfl
  | ok id =>
    -- whatever answers the call, it is not refused
    dsimp only at h
    split at h
    · cases h
    · split at h <;> cases h

/-- The outcome of a call that picks an expectation without unmet prerequisites is the answer of that expectation. -/
theorem Picks.outcome_eq {id : Nat} {args : Arguments} {e : Expectation} (h : s.Picks m method args id e)
    (hmet : s.unmet e = []) :
    s.outcome m method args =
      .answered (s.place m method id) (.ofAnswer (e.answer (s.selectionLog m method args) args)) := by
  have hselect : Selection.select s.log (s.expected m) method args = (.ok id, s.selectionLog m method args) :=
    Prod.ext h.selected rfl
  have hchoose : (s.choose m method args).1 = .ok id := by simp only [choose, hselect, h.found, hmet]
  simp only [outcome, hchoose, h.call_eq hmet]

/-- The session `t` has just what concerns a method of mock `m` in the session `s`. -/
structure Separates (s t : Session) (m : Nat) (method : String) : Prop where
  expectations : t.expectations = s.expectations.filter (isFor m method)
  mocks : t.mocks.length = s.mocks.length
  registered : t.registered m = ((s.registered m).filter (s.isOwn m method)).map (s.place m method)

private theorem separates_empty (m : Nat) (method : String) : Separates {} {} m method := ⟨rfl, rfl, rfl⟩

theorem Separates.found (h : Separates s t m method) {id : Nat} {e : Expectation}
    (hfound : s.expectation? id = some e) (hfor : isFor m method e = true) :
    t.expectation? (s.place m method id) = some e := by
  rw [expectation?, h.expectations]
  exact getElem?_filter_rank hfound hfor

private theorem Separates.place_place (h : Separates s t m method) {id : Nat} {e : Expectation}
    (hfound : s.expectation? id = some e) (hfor : isFor m method e = true) :
    t.place m method (s.place m method id) = s.place m method id := by
  have hlt : s.place m method id < (s.expectations.filter (isFor m method)).length :=
    (List.getElem?_eq_some_iff.mp (getElem?_filter_rank hfound hfor)).1
  rw [place, h.expectations]
  exact rank_filter (by omega)

theorem filterMap_named_cons {id : Nat} {e : Expectation} (h : s.expectation? id = some e) (ids : List Nat) :
    ((id :: ids).filterMap fun id => (s.expectation? id).map (id, ·)) =
      (id, e) :: ids.filterMap fun id => (s.expectation? id).map (id, ·) := by
  rw [List.filterMap_cons, h, Option.map_some]

/-- A mock has the same expectations of the method in both sessions, up to their numbers. -/
theorem Separates.named (h : Separates s t m method) (hs : s.Sound) :
    (t.expected m).filter (fun c => c.2.method == method) =
      ((s.expected m).filter fun c => c.2.method == method).map (Selection.renumber (s.place m method)) := by
  rw [expected_eq, expected_eq, h.registered]
  have howned := hs.owned m
  generalize s.registered m = ids at howned ⊢
  induction ids with
  | nil => rfl
  | cons id ids ih =>
    obtain ⟨e, hfound, howner⟩ := howned id List.mem_cons_self
    have hrest := ih fun j hj => howned j (List.mem_cons_of_mem id hj)
    have hown : s.isOwn m method id = (e.method == method) := by
      rw [isOwn_of_found hfound, isFor, howner, beq_self_eq_true, Bool.true_and]
    cases hmethod : e.method == method with
    | true =>
      have hfor : isFor m method e = true := by simp [isFor, howner, hmethod]
      rw [List.filter_cons_of_pos (hown.trans hmethod), List.map_cons, filterMap_named_cons (h.found hfound hfor),
        filterMap_named_cons hfound, List.filter_cons_of_pos (by exact hmethod),
        List.filter_cons_of_pos (by exact hmethod), List.map_cons, hrest]
      rfl
    | false =>
      rw [List.filter_cons_of_neg (by simp [hown, hmethod]), filterMap_named_cons hfound,
        List.filter_cons_of_neg (by simp [hmethod]), hrest]

/-- How many mocks an act makes. -/
def newMocks : Act → Nat
  | .newMock _ => 1
  | _ => 0

theorem length_mocks_register (e : Expectation) : (s.register e).1.mocks.length = s.mocks.length := by
  unfold register
  dsimp only
  split
  · exact List.length_set
  · rfl

private theorem length_mocks_reject (n : Notice) : (s.reject m n).mocks.length = s.mocks.length := by
  unfold reject
  cases s.mock? m with
  | none => rfl
  | some mock => exact List.length_set

private theorem length_mocks_record (args : Arguments) : (s.record m method args).mocks.length = s.mocks.length := by
  unfold record
  cases s.mock? m with
  | none => rfl
  | some mock => exact List.length_set

private theorem length_mocks_unset (id : Nat) : (s.unset m id).mocks.length = s.mocks.length := by
  unfold unset
  dsimp only
  split
  · split
    · exact List.length_set
    · rfl
  · rfl

private theorem length_mocks_audit : (s.audit m).1.mocks.length = s.mocks.length := by
  unfold audit
  dsimp only
  split
  · rfl
  · split
    · rfl
    · split
      · exact List.length_set
      · split
        · exact List.length_set
        · exact List.length_set

theorem length_mocks_call (args : Arguments) : (s.call m method args).1.mocks.length = s.mocks.length := by
  rcases call_cases s m method args with ⟨n, hcall⟩ | ⟨id, e, hpicks, hmet⟩
  · rw [hcall]
    exact length_mocks_reject n
  · rw [hpicks.call_eq hmet]
    exact length_mocks_record args

theorem length_mocks_after (s : Session) (a : Act) : (s.after a).mocks.length = s.mocks.length + newMocks a := by
  have hregistration : ∀ b : Act, b.isRegistration = true → (s.after b).mocks.length = s.mocks.length := by
    intro b hb
    rcases after_registration_cases s hb with ⟨_, hsame⟩ | ⟨e, _, hregister⟩
    · rw [hsame]
    · rw [hregister, length_mocks_register]
  cases a with
  | newMock keepsStacks => exact List.length_append
  | on m method pattern location => exact hregistration _ rfl
  | onAny m method location => exact hregistration _ rfl
  | answerWith m proxy location => exact hregistration _ rfl
  | configure id setting =>
    rcases after_configure_cases s id setting with hsame | ⟨_, _, _, _, hput⟩
    · rw [hsame]
      rfl
    · rw [hput]
      rfl
  | unset m id => exact length_mocks_unset id
  | call m method args => exact length_mocks_call args
  | callable m method args => rfl
  | setData m key v =>
    simp only [after, setData]
    cases s.mock? m with
    | none => rfl
    | some mock => exact List.length_set
  | audit m => exact length_mocks_audit
  | assertCallCount m method want =>
    simp only [after, assertCallCount]
    split <;> rfl

/-- What is left of an act makes the same mocks. -/
theorem length_mocks_concern (s t : Session) (m : Nat) (method : String) (a : Act) :
    (t.run (s.concern m method a)).mocks.length = t.mocks.length + newMocks a := by
  cases a with
  | newMock keepsStacks => exact length_mocks_after t (.newMock keepsStacks)
  | on | onAny | answerWith | configure | unset | call =>
    simp only [concern]
    split
    · simp only [run_cons, run_nil, length_mocks_after, newMocks]
    · rfl
  | _ => rfl

/-- An expectation that is taken off a mock is off, whether the mock had it or not. -/
theorem Sound.registered_unset (hs : s.Sound) (m id n : Nat) :
    (s.unset m id).registered n = if n = m then (s.registered n).filter (· ≠ id) else s.registered n := by
  have hsame : ∀ t, SameBooks s t → id ∉ s.registered m →
      t.registered n = if n = m then (s.registered n).filter (· ≠ id) else s.registered n := by
    intro t hbooks hid
    rw [hbooks.registered n]
    split
    · rename_i hn
      subst hn
      refine (List.filter_eq_self.mpr fun j hj => ?_).symm
      simpa using fun heq : j = id => hid (heq ▸ hj)
    · rfl
  unfold unset
  dsimp only
  cases hmock : s.helper.mock? m with
  | none =>
    have hnone : s.registered m = [] := by simp [Session.registered, show s.mock? m = none from hmock]
    exact hsame _ (.of_eq rfl rfl) (by simp [hnone])
  | some mock =>
    have hexpected : s.registered m = mock.expected := registered_of_mock? hmock
    cases hfound : s.helper.expectation? id with
    | none =>
      refine hsame _ (.of_eq rfl rfl) fun hid => ?_
      obtain ⟨e, he, _⟩ := hs.owned m id hid
      exact absurd (he.symm.trans hfound) (by simp)
    | some e =>
      dsimp only
      split
      · rw [registered_putMock hmock]
        split
        · rename_i hn
          rw [hn, hexpected]
        · rfl
      · rename_i hid
        exact hsame _ (.of_eq rfl rfl) (by simpa [hexpected] using hid)

theorem isOwn_of_set {id : Nat} {e e' : Expectation} (hfound : s.expectation? id = some e)
    (hexp : s'.expectations = s.expectations.set id e') (hfor : isFor m method e' = isFor m method e) :
    s'.isOwn m method = s.isOwn m method := by
  funext j
  unfold isOwn
  rw [expectation?_of_set hexp hfound]
  split
  · rename_i hj
    simp [hj, hfound, hfor]
  · rfl

theorem place_of_set {id : Nat} {e e' : Expectation} (hfound : s.expectation? id = some e)
    (hexp : s'.expectations = s.expectations.set id e') (hfor : isFor m method e' = isFor m method e) :
    s'.place m method = s.place m method := by
  funext j
  rw [place, hexp]
  exact rank_set hfound hfor j

/-- What leaves the books of both sessions alone does not matter. -/
theorem Separates.of_sameBooks (h : Separates s t m method) (hmocks : t'.mocks.length = s'.mocks.length)
    (hs : SameBooks s s') (ht : SameBooks t t') : Separates s' t' m method := by
  refine ⟨?_, hmocks, ?_⟩
  · rw [ht.expectations, hs.expectations, h.expectations]
  · have hown : s'.isOwn m method = s.isOwn m method := by
      funext id
      rw [isOwn, isOwn, expectation?, expectation?, hs.expectations]
    have hplace : s'.place m method = s.place m method := by
      funext id
      rw [place, place, hs.expectations]
    rw [ht.registered m, hs.registered m, h.registered, hown, hplace]

/-- An expectation of another method changes as it likes. -/
theorem Separates.of_set_other (h : Separates s t m method) {id : Nat} {e e' : Expectation}
    (hmocks : t.mocks.length = s'.mocks.length) (hfound : s.expectation? id = some e)
    (hexp : s'.expectations = s.expectations.set id e') (hreg : s'.registered m = s.registered m)
    (hfor : isFor m method e = false) (hfor' : isFor m method e' = false) : Separates s' t m method := by
  have hsame : isFor m method e' = isFor m method e := hfor'.trans hfor.symm
  refine ⟨?_, hmocks, ?_⟩
  · rw [h.expectations, hexp, filter_set_of_not hfound hfor hfor']
  · rw [h.registered, hreg, isOwn_of_set hfound hexp hsame, place_of_set hfound hexp hsame]

/-- An expectation of the method changes in both sessions. -/
theorem Separates.of_set_own (h : Separates s t m method) {id : Nat} {e e' : Expectation}
    (hmocks : t'.mocks.length = s'.mocks.length) (hfound : s.expectation? id = some e)
    (hexp : s'.expectations = s.expectations.set id e')
    (hexp' : t'.expectations = t.expectations.set (s.place m method id) e')
    (hreg : s'.registered m = s.registered m) (hreg' : t'.registered m = t.registered m)
    (hfor : isFor m method e = true) (hfor' : isFor m method e' = true) : Separates s' t' m method := by
  have hsame : isFor m method e' = isFor m method e := hfor'.trans hfor.symm
  refine ⟨?_, hmocks, ?_⟩
  · rw [hexp', h.expectations, hexp, filter_set_rank hfound hfor hfor']
    rfl
  · rw [hreg', h.registered, hreg, isOwn_of_set hfound hexp hsame, place_of_set hfound hexp hsame]

/-- An expectation of the method is registered in both sessions, another one is left out of the second. -/
theorem Separates.register (h : Separates s t m method) (hs : s.Sound) (e : Expectation) :
    Separates (s.register e).1 (if isFor m method e then (t.register e).1 else t) m method := by
  have hexp : (s.register e).1.expectations = s.expectations ++ [e] := (register_books s e).1
  have hlast : (s.register e).1.expectation? s.expectations.length = some e := by simp [expectation?, hexp]
  have hown : ∀ id ∈ s.registered m, (s.register e).1.isOwn m method id = s.isOwn m method id := by
    intro id hid
    obtain ⟨old, hold, _⟩ := hs.owned m id hid
    rw [isOwn, isOwn, expectation?, hexp, List.getElem?_append_left (expectation?_lt hold), expectation?]
  have hplace : ∀ id ∈ s.registered m, (s.register e).1.place m method id = s.place m method id := by
    intro id hid
    obtain ⟨old, hold, _⟩ := hs.owned m id hid
    have hlt := expectation?_lt hold
    rw [place, hexp, rank_append (by omega), place]
  have hold : ((s.registered m).filter ((s.register e).1.isOwn m method)).map ((s.register e).1.place m method) =
      t.registered m := by
    rw [h.registered, List.filter_congr hown]
    exact List.map_congr_left fun id hid => hplace id (List.mem_filter.mp hid).1
  cases hfor : isFor m method e with
  | false =>
    rw [if_neg (by simp)]
    refine ⟨by simp [hexp, h.expectations, hfor], by rw [length_mocks_register, h.mocks], ?_⟩
    rw [registered_register, List.filter_append, List.map_append, hold]
    split <;> simp [isOwn, hlast, hfor]
  | true =>
    have howner : m = e.owner := (isFor_iff.mp hfor).1.symm
    have hexp' : (t.register e).1.expectations = t.expectations ++ [e] := (register_books t e).1
    rw [if_pos rfl]
    refine ⟨by simp [hexp, hexp', h.expectations, hfor], ?_, ?_⟩
    · rw [length_mocks_register, length_mocks_register, h.mocks]
    · have hnew : (s.register e).1.place m method s.expectations.length = t.expectations.length := by
        rw [place, hexp, rank_append (Nat.le_refl _), rank_length, h.expectations]
      rw [registered_register, registered_register, List.filter_append, List.map_append, hold, h.mocks]
      split <;> simp [isOwn, hlast, hfor, hnew]

/-- No expectation has prerequisites. -/
def Unconditional (s : Session) : Prop := ∀ id e, s.expectation? id = some e → e.requires = []

theorem unmet_of_requires_nil {e : Expectation} (h : e.requires = []) : s.unmet e = [] := by
  rw [unmet, h]
  rfl

/-- Prerequisites are never dropped. -/
theorem unconditional_of_run (acts : List Act) (h : (s.run acts).Unconditional) : s.Unconditional := by
  induction acts generalizing s with
  | nil => exact h
  | cons a acts ih =>
    intro id e hfound
    obtain ⟨e', hfound', hevolves⟩ := (change s a).evolves hfound
    have hnone : e'.requires = [] := ih h id e' hfound'
    rw [List.eq_nil_iff_forall_not_mem]
    intro r hr
    have hstays := hevolves.requires_stay hr
    rw [hnone] at hstays
    cases hstays

/-- A setting means the same in both sessions, as none of them gives prerequisites. -/
theorem Separates.known_eq (h : Separates s t m method) {id : Nat} {e : Expectation} {setting : Setting}
    (hfound : s.expectation? id = some e) (hfree : (s.after (.configure id setting)).Unconditional) :
    t.known setting = s.known setting := by
  cases setting with
  | requires given =>
    let e' : Expectation := { e with requires := e.requires ++ given.filter (· < s.expectations.length) }
    have hafter : s.after (.configure id (.requires given)) = s.putExpectation id e' := by
      simp [after, Session.configure, hfound, known, Expectation.apply, e']
    have hfound' : (s.after (.configure id (.requires given))).expectation? id = some e' := by
      rw [hafter, expectation?_of_set rfl hfound, if_pos rfl]
    have hnone : given.filter (· < s.expectations.length) = [] :=
      (List.append_eq_nil_iff.mp (hfree id e' hfound')).2
    have hfewer : t.expectations.length ≤ s.expectations.length := by
      rw [h.expectations]
      exact List.length_filter_le _ _
    have hnone' : given.filter (· < t.expectations.length) = [] := by
      rw [List.filter_eq_nil_iff] at hnone ⊢
      intro r hr
      have hnot := hnone r hr
      simp only [decide_eq_true_eq] at hnot ⊢
      omega
    rw [known, known, hnone, hnone']
  | _ => rfl

theorem Separates.configure (h : Separates s t m method) {id : Nat} {setting : Setting}
    (hfree : (s.after (.configure id setting)).Unconditional) :
    Separates (s.after (.configure id setting)) (t.run (s.concern m method (.configure id setting))) m method := by
  have hmocks : (t.run (s.concern m method (.configure id setting))).mocks.length =
      (s.after (.configure id setting)).mocks.length := by
    rw [length_mocks_concern, length_mocks_after, h.mocks]
  simp only [concern] at hmocks ⊢
  cases hfound : s.expectation? id with
  | none =>
    have hsame : s.after (.configure id setting) = s := by simp [after, Session.configure, hfound]
    have hown : s.isOwn m method id = false := by simp [isOwn, hfound]
    rw [hsame, hown]
    exact h
  | some e =>
    rw [isOwn_of_found hfound] at hmocks ⊢
    cases happly : e.apply (s.known setting) with
    | error u =>
      have hsame : s.after (.configure id setting) = s := by simp [after, Session.configure, hfound, happly]
      rw [hsame]
      cases hfor : isFor m method e with
      | false => exact h
      | true =>
        have hsame' : t.after (.configure (s.place m method id) setting) = t := by
          simp [after, Session.configure, h.found hfound hfor, h.known_eq hfound hfree, happly]
        rw [if_pos rfl, run_cons, run_nil, hsame']
        exact h
    | ok e' =>
      have happlied := Expectation.applied_of_apply happly
      have hkept : isFor m method e' = isFor m method e := by
        rw [isFor, isFor, happlied.owner_eq, happlied.method_eq]
      have hput : s.after (.configure id setting) = s.putExpectation id e' := by
        simp [after, Session.configure, hfound, happly]
      rw [hput] at hmocks ⊢
      cases hfor : isFor m method e with
      | false =>
        rw [hfor] at hmocks hkept
        exact h.of_set_other hmocks hfound rfl rfl hfor hkept
      | true =>
        have hput' : t.after (.configure (s.place m method id) setting) =
            t.putExpectation (s.place m method id) e' := by
          simp [after, Session.configure, h.found hfound hfor, h.known_eq hfound hfree, happly]
        rw [hfor] at hmocks hkept
        rw [if_pos rfl, run_cons, run_nil, hput'] at hmocks ⊢
        exact h.of_set_own hmocks hfound rfl rfl rfl rfl hfor hkept

theorem Separates.unset (h : Separates s t m method) (hs : s.Sound) (ht : t.Sound) (n id : Nat) :
    Separates (s.after (.unset n id)) (t.run (s.concern m method (.unset n id))) m method := by
  have hmocks : (t.run (s.concern m method (.unset n id))).mocks.length = (s.after (.unset n id)).mocks.length := by
    rw [length_mocks_concern, length_mocks_after, h.mocks]
  have hexp : (s.after (.unset n id)).expectations = s.expectations := (unset_books s n id).1
  have hown : (s.after (.unset n id)).isOwn m method = s.isOwn m method := by
    funext j
    rw [isOwn, isOwn, expectation?, expectation?, hexp]
  have hplace : (s.after (.unset n id)).place m method = s.place m method := by
    funext j
    rw [place, place, hexp]
  have hreg : (s.after (.unset n id)).registered m =
      if m = n then (s.registered m).filter (· ≠ id) else s.registered m := hs.registered_unset n id m
  simp only [concern] at hmocks ⊢
  by_cases hconcerns : n = m ∧ s.isOwn m method id = true
  · rw [if_pos hconcerns, run_cons, run_nil] at hmocks ⊢
    obtain ⟨rfl, hid⟩ := hconcerns
    refine ⟨?_, hmocks, ?_⟩
    · rw [hexp, ← h.expectations]
      exact (unset_books t n _).1
    · have hreg' : (t.after (.unset n (s.place n method id))).registered n =
          (t.registered n).filter (· ≠ s.place n method id) := by
        rw [after, ht.registered_unset, if_pos rfl]
      obtain ⟨e, hfound, hfor⟩ := isOwn_iff.mp hid
      rw [hreg', h.registered, hreg, if_pos rfl, hown, hplace, List.filter_map, List.filter_filter,
        List.filter_filter]
      congr 1
      refine List.filter_congr fun j _ => ?_
      cases hj : s.isOwn n method j with
      | false => simp
      | true =>
        -- different expectations of the method have different places
        obtain ⟨e', hfound', hfor'⟩ := isOwn_iff.mp hj
        have hsame : s.place n method j = s.place n method id ↔ j = id :=
          ⟨rank_inj hfound' hfor' hfound hfor, fun heq => by rw [heq]⟩
        simp [hsame]
  · rw [if_neg hconcerns, run_nil] at hmocks ⊢
    refine ⟨by rw [hexp, h.expectations], hmocks, ?_⟩
    rw [h.registered, hreg, hown, hplace]
    split
    · rename_i hn
      have hother : s.isOwn m method id = false := by simpa [hn] using hconcerns
      rw [List.filter_filter]
      congr 1
      refine List.filter_congr fun j _ => ?_
      by_cases hj : j = id
      · simp [hj, hother]
      · simp [hj]
    · rfl

theorem sameBooks_call_of_select_error {args : Arguments} {n : Notice}
    (h : (Selection.select s.log (s.expected m) method args).1 = .error n) : SameBooks s (s.call m method args).1 := by
  rw [call_of_select_error h]
  have hstart : SameBooks s { s.helper with log := s.selectionLog m method args } := .of_eq rfl rfl
  exact hstart.trans (sameBooks_reject n)

private theorem Separates.select_ok (h : Separates s t m method) (hs : s.Sound) {args : Arguments} {id : Nat}
    (hselect : (Selection.select s.log (s.expected m) method args).1 = .ok id) :
    (Selection.select t.log (t.expected m) method args).1 = .ok (s.place m method id) := by
  have hsame := Selection.select_renumber (s.place m method) s.log t.log args (h.named hs)
  rw [hselect] at hsame
  generalize (Selection.select t.log (t.expected m) method args).1 = chosen at hsame ⊢
  cases chosen with
  | ok id' => simpa [Selection.mapError_ok, Selection.mapError_error, Except.map] using hsame
  | error n' => simp [Selection.mapError_ok, Selection.mapError_error, Except.map] at hsame

private theorem Separates.select_error (h : Separates s t m method) (hs : s.Sound) {args : Arguments} {n : Notice}
    (hselect : (Selection.select s.log (s.expected m) method args).1 = .error n) :
    ∃ n', (Selection.select t.log (t.expected m) method args).1 = .error n' ∧ n'.header = n.header := by
  have hsame := Selection.select_renumber (s.place m method) s.log t.log args (h.named hs)
  rw [hselect] at hsame
  generalize (Selection.select t.log (t.expected m) method args).1 = chosen at hsame ⊢
  cases chosen with
  | ok id' => simp [Selection.mapError_ok, Selection.mapError_error, Except.map] at hsame
  | error n' => exact ⟨n', rfl, by simpa [Selection.mapError_ok, Selection.mapError_error, Except.map] using hsame⟩

theorem isFor_of_picks (hs : s.Sound) {n id : Nat} {called : String} {args : Arguments} {e : Expectation}
    (hpicks : s.Picks n called args id e) : isFor m method e = true ↔ n = m ∧ called = method := by
  obtain ⟨e', hfound, howner⟩ := hs.owned n id hpicks.registered
  obtain rfl : e' = e := Option.some.inj (hfound.symm.trans hpicks.found)
  rw [isFor_iff, howner, hpicks.method_eq]

/-- A call of the method has the same outcome in both sessions. -/
theorem Separates.call (h : Separates s t m method) (hs : s.Sound) (hfree : s.Unconditional)
    (hnotes : s.IgnoresNotes) (args : Arguments) :
    Separates (s.call m method args).1 (t.call m method args).1 m method ∧
      t.outcome m method args = s.outcome m method args := by
  have hmocks : (t.call m method args).1.mocks.length = (s.call m method args).1.mocks.length := by
    rw [length_mocks_call, length_mocks_call, h.mocks]
  cases hselect : (Selection.select s.log (s.expected m) method args).1 with
  | error n =>
    obtain ⟨n', hselect', hheader⟩ := h.select_error hs hselect
    have hrejected : (s.call m method args).2 = .rejected n := by rw [call_of_select_error hselect]
    have hrejected' : (t.call m method args).2 = .rejected n' := by rw [call_of_select_error hselect']
    refine ⟨?_, ?_⟩
    · exact h.of_sameBooks hmocks (sameBooks_call_of_select_error hselect) (sameBooks_call_of_select_error hselect')
    · rw [outcome_of_rejected hrejected, outcome_of_rejected hrejected', hheader]
  | ok id =>
    obtain ⟨e, hpicks⟩ := picks_of_select hselect
    obtain ⟨e', hpicks'⟩ := picks_of_select (h.select_ok hs hselect)
    have hfor : isFor m method e = true := (isFor_of_picks hs hpicks).mpr ⟨rfl, rfl⟩
    obtain rfl : e' = e := Option.some.inj (hpicks'.found.symm.trans (h.found hpicks.found hfor))
    have hmet : s.unmet e' = [] := unmet_of_requires_nil (hfree id e' hpicks.found)
    have hmet' : t.unmet e' = [] := unmet_of_requires_nil (hfree id e' hpicks.found)
    obtain ⟨hexp, hreg, _⟩ := hpicks.answered_books hmet
    obtain ⟨hexp', hreg', _⟩ := hpicks'.answered_books hmet'
    refine ⟨h.of_set_own hmocks hpicks.found hexp hexp' (hreg m) (hreg' m) hfor hfor, ?_⟩
    have hanswer := (hnotes id e' hpicks.found).answer_eq (s.selectionLog m method args)
      (t.selectionLog m method args) args
    rw [hpicks.outcome_eq hmet, hpicks'.outcome_eq hmet', h.place_place hpicks.found hfor, hanswer]

/-- A call of another method, or of another mock, does not matter. -/
theorem Separates.call_other (h : Separates s t m method) (hs : s.Sound) {n : Nat} {called : String}
    {args : Arguments} (hother : ¬(n = m ∧ called = method)) :
    Separates (s.after (.call n called args)) t m method := by
  have hmocks : t.mocks.length = (s.after (.call n called args)).mocks.length := by
    rw [length_mocks_after, h.mocks]
    rfl
  cases change s (.call n called args) with
  | same hbooks _ => exact h.of_sameBooks hmocks hbooks (.refl t)
  | registered e hact => cases hact
  | answered e reply hpicks _ _ _ hexp hreg _ =>
    have hfor : isFor m method e = false := by
      rw [Bool.eq_false_iff]
      exact fun hown => hother ((isFor_of_picks hs hpicks).mp hown)
    exact h.of_set_other hmocks hpicks.found hexp (hreg m) hfor hfor

/-- An act and what of it concerns the method keep the sessions alike, with the same outcome if it is a call. -/
theorem Separates.after (h : Separates s t m method) (hs : s.Sound) (ht : t.Sound)
    (hfree : (s.after a).Unconditional) (hnotes : s.IgnoresNotes) :
    Separates (s.after a) (t.run (s.concern m method a)) m method ∧
      t.outcomes m method (s.concern m method a) = s.outcomeOf m method a := by
  have hmocks : (t.run (s.concern m method a)).mocks.length = (s.after a).mocks.length := by
    rw [length_mocks_concern, length_mocks_after, h.mocks]
  have hregistration : ∀ b : Act, b.isRegistration = true → ∀ left : List Act,
      left = (if b.registered?.any (isFor m method) then [b] else []) →
      Separates (s.after b) (t.run left) m method := by
    rintro b hb _ rfl
    cases hregistered : b.registered? with
    | none =>
      rw [after_of_registered?_eq_none s hb hregistered]
      exact h
    | some e =>
      have hboth := h.register hs e
      rw [after_of_registered? s hregistered, Option.any_some]
      split
      · rename_i hfor
        rwa [if_pos hfor, ← after_of_registered? t hregistered] at hboth
      · rename_i hfor
        rwa [if_neg hfor] at hboth
  cases a with
  | newMock keepsStacks =>
    exact ⟨h.of_sameBooks hmocks (sameBooks_newMock keepsStacks) (sameBooks_newMock keepsStacks), rfl⟩
  | on n called pattern location =>
    refine ⟨hregistration _ rfl _ rfl, ?_⟩
    simp only [concern]
    split <;> rfl
  | onAny n called location =>
    refine ⟨hregistration _ rfl _ rfl, ?_⟩
    simp only [concern]
    split <;> rfl
  | answerWith n proxy location =>
    refine ⟨hregistration _ rfl _ rfl, ?_⟩
    simp only [concern]
    split <;> rfl
  | configure id setting =>
    refine ⟨h.configure hfree, ?_⟩
    simp only [concern]
    split <;> rfl
  | unset n id =>
    refine ⟨h.unset hs ht n id, ?_⟩
    simp only [concern]
    split <;> rfl
  | call n called args =>
    by_cases hconcerns : n = m ∧ called = method
    · obtain ⟨rfl, rfl⟩ := hconcerns
      obtain ⟨hafter, houtcome⟩ := h.call hs (unconditional_of_run [.call n called args] hfree) hnotes args
      simp only [concern, outcomeOf, and_self, if_true]
      refine ⟨hafter, ?_⟩
      simp only [outcomes, outcomeOf, and_self, if_true, houtcome, List.append_nil]
    · simp only [concern, outcomeOf, if_neg hconcerns]
      exact ⟨h.call_other hs hconcerns, rfl⟩
  | callable n called args => exact ⟨h.of_sameBooks hmocks (sameBooks_callable called args) (.refl t), rfl⟩
  | setData n key v => exact ⟨h.of_sameBooks hmocks (sameBooks_setData key v) (.refl t), rfl⟩
  | audit n => exact ⟨h.of_sameBooks hmocks sameBooks_audit (.refl t), rfl⟩
  | assertCallCount n called want =>
    exact ⟨h.of_sameBooks hmocks (sameBooks_assertCallCount called want) (.refl t), rfl⟩

private theorem Separates.outcomes_eq (h : Separates s t m method) (hs : s.Sound) (ht : t.Sound) (hnotes : s.IgnoresNotes)
    {acts : List Act} (hacts : ∀ a ∈ acts, a.IgnoresNotes) (hfree : (s.run acts).Unconditional) :
    t.outcomes m method (s.concerning m method acts) = s.outcomes m method acts := by
  induction acts generalizing s t with
  | nil => rfl
  | cons a acts ih =>
    have hnow : (s.after a).Unconditional := unconditional_of_run acts hfree
    obtain ⟨hafter, houtcome⟩ := h.after hs ht hnow hnotes
    have hsound : (t.run (s.concern m method a)).Sound :=
      run_keeps _ ht fun u b hu => (change u b).sound hu
    have hnext : (s.after a).IgnoresNotes := hnotes.after (hacts a List.mem_cons_self)
    have hrest := ih hafter ((change s a).sound hs) hsound hnext (fun b hb => hacts b (List.mem_cons_of_mem a hb)) hfree
    rw [concerning, outcomes_append, houtcome, hrest, outcomes]

/-- When no expectation of a run has prerequisites, the calls of a method have the same outcomes as in the run that
    is restricted to what concerns this method: the same expectations answer them in the same way, and the same
    calls are refused under the same header. -/
theorem methods_do_not_interfere (acts : List Act) (m : Nat) (method : String)
    (hacts : ∀ a ∈ acts, a.IgnoresNotes)
    (hfree : ∀ id e, (run {} acts).expectation? id = some e → e.requires = []) :
    outcomes {} m method (concerning {} m method acts) = outcomes {} m method acts :=
  (separates_empty m method).outcomes_eq sound_empty sound_empty ignoresNotes_empty hacts hfree

/-- Calls of two methods of a mock, one of which is refused. -/
def doorOfTwoMethods : List Act :=
  [.newMock false, .onAny 0 "Open" "door.rs:1", .onAny 0 "Close" "door.rs:2", .onAny 0 "Close" "door.rs:3",
    .configure 1 (.times 1), .call 0 "Open" [], .call 0 "Lock" [], .call 0 "Close" [], .call 0 "Open" [],
    .unset 0 0, .call 0 "Close" [], .unset 0 2, .call 0 "Close" []]

theorem outcomes_of_doorOfTwoMethods :
    concerning {} 0 "Close" doorOfTwoMethods =
      [.newMock false, .onAny 0 "Close" "door.rs:2", .onAny 0 "Close" "door.rs:3", .configure 0 (.times 1),
        .call 0 "Close" [], .call 0 "Close" [], .unset 0 1, .call 0 "Close" []] ∧
    outcomes {} 0 "Close" (concerning {} 0 "Close" doorOfTwoMethods) =
      [.answered 0 (.returned []), .answered 1 (.returned []), .refused Notice.tooManyCalls] := by
  have hacts : ∀ a ∈ doorOfTwoMethods, a.IgnoresNotes := by
    simp [doorOfTwoMethods, Act.IgnoresNotes]
  have hfree : ∀ id e, (run {} doorOfTwoMethods).expectation? id = some e → e.requires = [] := by
    have hall : (run {} doorOfTwoMethods).expectations.all (·.requires.isEmpty) = true := rfl
    intro id e he
    exact List.isEmpty_iff.mp (List.all_eq_true.mp hall e (List.mem_of_getElem? he))
  exact ⟨rfl, (methods_do_not_interfere doorOfTwoMethods 0 "Close" hacts hfree).trans rfl⟩

end TraitMock.Session
