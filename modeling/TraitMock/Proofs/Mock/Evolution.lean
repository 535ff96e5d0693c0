import Mathlib.Data.List.Basic
import TraitMock.Proofs.Mock.Change

namespace TraitMock.Expectation

variable {e e' : Expectation} {setting : Setting}

/-- What a step of setting up does to the number of calls expected and to the prerequisites. All other steps
    leave these alone. -/
inductive Applied (e : Expectation) : Setting → Expectation → Prop where
  | times (n : Nat) (hoptional : e.optional = false) : Applied e (.times n) { e with times := n }
  | optional (htimes : e.times = 0) : Applied e .optional { e with optional := true }
  | requires (expectations : List Nat) :
    Applied e (.requires expectations) { e with requires := e.requires ++ expectations }
  | other {setting : Setting} {e' : Expectation} (howner : e'.owner = e.owner) (hmethod : e'.method = e.method)
      (hcount : e'.count = e.count) (htimes : e'.times = e.times) (hoptional : e'.optional = e.optional)
      (hrequires : e'.requires = e.requires) : Applied e setting e'

theorem applied_of_apply (h : e.apply setting = .ok e') : Applied e setting e' := by
  cases setUp_of_apply h with
  | times n hoptional => exact .times n hoptional
  | optional htimes => exact .optional htimes
  | requires expectations => exact .requires expectations
  | _ => exact .other rfl rfl rfl rfl rfl rfl

theorem Applied.owner_eq (h : Applied e setting e') : e'.owner = e.owner := by
  cases h with
  | times => rfl
  | optional => rfl
  | requires => rfl
  | other howner => exact howner

theorem Applied.method_eq (h : Applied e setting e') : e'.method = e.method := by
  cases h with
  | times => rfl
  | optional => rfl
  | requires => rfl
  | other _ hmethod => exact hmethod

theorem Applied.count_eq (h : Applied e setting e') : e'.count = e.count := by
  cases h with
  | times => rfl
  | optional => rfl
  | requires => rfl
  | other _ _ hcount => exact hcount

/-- Nothing makes an optional expectation mandatory again. -/
theorem Applied.optional_stays (h : Applied e setting e') (hoptional : e.optional = true) :
    e'.optional = true := by
  cases h with
  | times n hmandatory => exact hoptional
  | optional htimes => rfl
  | requires expectations => exact hoptional
  | other _ _ _ _ hsame _ => rw [hsame, hoptional]

/-- Prerequisites are added and never dropped. -/
theorem Applied.requires_stay (h : Applied e setting e') {r : Nat} (hr : r ∈ e.requires) :
    r ∈ e'.requires := by
  cases h with
  | times n hmandatory => exact hr
  | optional htimes => exact hr
  | requires expectations => exact List.mem_append_left _ hr
  | other _ _ _ _ _ hsame => rwa [hsame]

/-- A prerequisite was there before or is one of those just given. -/
theorem Applied.mem_requires (h : Applied e setting e') {r : Nat} (hr : r ∈ e'.requires) :
    r ∈ e.requires ∨ ∃ expectations, setting = .requires expectations ∧ r ∈ expectations := by
  cases h with
  | times n hmandatory => exact .inl hr
  | optional htimes => exact .inl hr
  | requires expectations =>
    rcases List.mem_append.mp hr with hold | hnew
    · exact .inl hold
    · exact .inr ⟨expectations, rfl, hnew⟩
  | other _ _ _ _ _ hsame => exact .inl (hsame ▸ hr)

/-- Without a call only an optional expectation is satisfied. -/
theorem optional_of_satisfied_of_count_eq_zero (hsatisfied : e.satisfied = true) (hcount : e.count = 0) :
    e.optional = true := by
  cases hoptional : e.optional with
  | true => rfl
  | false =>
    rw [satisfied, hoptional, hcount] at hsatisfied
    simp at hsatisfied
    omega

end TraitMock.Expectation

namespace TraitMock.Session

variable {s t : Session} {a : Act}

/-- How an act changes the expectation `e` with the number `id`: not at all, by setting it up further, or by a
    call that it answers. -/
inductive Evolves (s : Session) (id : Nat) (e : Expectation) : Act → Expectation → Prop where
  | kept {a : Act} : Evolves s id e a e
  | configured {setting : Setting} {e' : Expectation} (happly : e.apply (s.known setting) = .ok e') :
    Evolves s id e (.configure id setting) e'
  | counted {m : Nat} {method : String} {args : Arguments} (hpicks : s.Picks m method args id e)
      (hmet : s.unmet e = []) : Evolves s id e (.call m method args) e.counted

theorem Evolves.owner_eq {id : Nat} {e e' : Expectation} (h : Evolves s id e a e') : e'.owner = e.owner := by
  cases h with
  | kept => rfl
  | configured happly => exact (Expectation.applied_of_apply happly).owner_eq
  | counted _ _ => rfl

theorem Evolves.optional_stays {id : Nat} {e e' : Expectation} (h : Evolves s id e a e')
    (hoptional : e.optional = true) : e'.optional = true := by
  cases h with
  | kept => exact hoptional
  | configured happly => exact (Expectation.applied_of_apply happly).optional_stays hoptional
  | counted _ _ => exact hoptional

theorem Evolves.requires_stay {id r : Nat} {e e' : Expectation} (h : Evolves s id e a e')
    (hr : r ∈ e.requires) : r ∈ e'.requires := by
  cases h with
  | kept => exact hr
  | configured happly => exact (Expectation.applied_of_apply happly).requires_stay hr
  | counted _ _ => exact hr

theorem expectation?_lt {id : Nat} {e : Expectation} (h : s.expectation? id = some e) :
    id < s.expectations.length :=
  (List.getElem?_eq_some_iff.mp h).1

theorem expectation?_of_set {id j : Nat} {e e' : Expectation} (hexp : t.expectations = s.expectations.set id e')
    (hfound : s.expectation? id = some e) :
    t.expectation? j = if j = id then some e' else s.expectation? j := by
  have hlt := expectation?_lt hfound
  simp only [expectation?, hexp, List.getElem?_set, hlt, if_true]
  by_cases hj : j = id
  · simp [hj]
  · simp [hj, Ne.symm hj]

/-- An expectation stays in existence, whatever is done. -/
theorem Change.evolves {id : Nat} {e : Expectation} (h : Change s a t) (hfound : s.expectation? id = some e) :
    ∃ e', t.expectation? id = some e' ∧ Evolves s id e a e' := by
  have hsame : t.expectations = s.expectations → ∃ e', t.expectation? id = some e' ∧ Evolves s id e a e' :=
    fun hexp => ⟨e, by simpa only [expectation?, hexp] using hfound, .kept⟩
  cases h with
  | same hbooks _ => exact hsame hbooks.expectations
  | unset hexp _ _ => exact hsame hexp
  | registered new _ _ hexp _ _ =>
    refine ⟨e, ?_, .kept⟩
    simp only [expectation?, hexp]
    rw [List.getElem?_append_left (expectation?_lt hfound)]
    exact hfound
  | @configured j setting _ old old' hold happly hexp _ _ =>
    rw [expectation?_of_set hexp hold]
    by_cases hj : id = j
    · subst hj
      obtain rfl : old = e := Option.some.inj (hold.symm.trans hfound)
      exact ⟨old', if_pos rfl, .configured happly⟩
    · exact ⟨e, by simpa [hj] using hfound, .kept⟩
  | @answered m j method args _ old reply hpicks hmet _ _ hexp _ _ =>
    rw [expectation?_of_set hexp hpicks.found]
    by_cases hj : id = j
    · subst hj
      obtain rfl : old = e := Option.some.inj (hpicks.found.symm.trans hfound)
      exact ⟨old.counted, if_pos rfl, .counted hpicks hmet⟩
    · exact ⟨e, by simpa [hj] using hfound, .kept⟩

/-- An expectation was there before the act or is registered by it. -/
theorem Change.origin {id : Nat} {e' : Expectation} (h : Change s a t) (hfound : t.expectation? id = some e') :
    (∃ e, s.expectation? id = some e ∧ Evolves s id e a e') ∨ a.registered? = some e' := by
  cases hold : s.expectation? id with
  | some e =>
    obtain ⟨now, hnow, hevolves⟩ := h.evolves hold
    obtain rfl : now = e' := Option.some.inj (hnow.symm.trans hfound)
    exact .inl ⟨e, rfl, hevolves⟩
  | none =>
    -- a number that was not in use before can only be that of the expectation just registered
    right
    have hge : s.expectations.length ≤ id := List.getElem?_eq_none_iff.mp hold
    have hlt : id < t.expectations.length := expectation?_lt hfound
    cases h with
    | same hbooks _ =>
      rw [hbooks.expectations] at hlt
      omega
    | unset hexp _ _ =>
      rw [hexp] at hlt
      omega
    | registered new hact _ hexp _ _ =>
      rw [hexp, List.length_append, List.length_singleton] at hlt
      have hid : id = s.expectations.length := by omega
      have hlast : t.expectation? id = some new := by simp [expectation?, hexp, hid]
      obtain rfl : new = e' := Option.some.inj (hlast.symm.trans hfound)
      exact hact
    | configured _ _ _ _ hexp _ _ =>
      rw [hexp, List.length_set] at hlt
      omega
    | answered _ _ _ _ _ _ hexp _ _ =>
      rw [hexp, List.length_set] at hlt
      omega

/-- What holds of new expectations, and is kept when one is set up or called, holds of all of them. -/
theorem Change.forall_expectation {P : Expectation → Prop} (h : Change s a t)
    (hold : ∀ id e, s.expectation? id = some e → P e) (hnew : ∀ e, a.registered? = some e → P e)
    (hsetUp : ∀ {e e' : Expectation} {setting : Setting}, e.apply setting = .ok e' → P e → P e')
    (hcounted : ∀ {e : Expectation}, P e → P e.counted) : ∀ id e, t.expectation? id = some e → P e := by
  intro id e' he'
  rcases h.origin he' with ⟨e, he, hevolves⟩ | hregistered
  · cases hevolves with
    | kept => exact hold id e' he
    | configured happly => exact hsetUp happly (hold id e he)
    | counted _ _ => exact hcounted (hold id e he)
  · exact hnew e' hregistered

theorem Change.length_le (h : Change s a t) : s.expectations.length ≤ t.expectations.length := by
  cases h with
  | same hbooks _ => simp [hbooks.expectations]
  | registered _ _ _ hexp _ _ => simp [hexp]
  | configured _ _ _ _ hexp _ _ => simp [hexp]
  | unset hexp _ _ => simp [hexp]
  | answered _ _ _ _ _ _ hexp _ _ => simp [hexp]

/-- What holds of every session that a run reaches: a mock has only expectations that were registered with it, in
    the order of registration, and every prerequisite is an expectation. -/
structure Sound (s : Session) : Prop where
  owned : ∀ m, ∀ id ∈ s.registered m, ∃ e, s.expectation? id = some e ∧ e.owner = m
  ordered : ∀ m, (s.registered m).Pairwise (· < ·)
  known : ∀ id e, s.expectation? id = some e → ∀ r ∈ e.requires, r < s.expectations.length

theorem sound_empty : Sound {} := by
  refine ⟨fun m id hid => ?_, fun m => ?_, fun id e he => ?_⟩
  · simp [registered, mock?] at hid
  · simp [registered, mock?]
  · simp [expectation?] at he

/-- A mock has an expectation that it had before, or the one that was just registered with it. -/
theorem Change.mem_registered {m id : Nat} (h : Change s a t) (hid : id ∈ t.registered m) :
    id ∈ s.registered m ∨
      id = s.expectations.length ∧ ∃ e, t.expectation? id = some e ∧ e.owner = m := by
  have hsame : t.registered m = s.registered m → id ∈ s.registered m := fun hreg => hreg ▸ hid
  cases h with
  | same hbooks _ => exact .inl (hsame (hbooks.registered m))
  | registered e _ _ hexp hreg _ =>
    rcases hreg m with hkept | ⟨howner, hadded⟩
    · exact .inl (hsame hkept)
    · rw [hadded] at hid
      rcases List.mem_append.mp hid with hold | hnew
      · exact .inl hold
      · obtain rfl := List.mem_singleton.mp hnew
        exact .inr ⟨rfl, e, by simp [expectation?, hexp], howner.symm⟩
  | configured _ _ _ _ _ hreg _ => exact .inl (hsame (hreg m))
  | unset _ hreg _ =>
    rcases hreg m with hkept | ⟨_, hfiltered⟩
    · exact .inl (hsame hkept)
    · rw [hfiltered] at hid
      exact .inl (List.mem_filter.mp hid).1
  | answered _ _ _ _ _ _ _ hreg _ => exact .inl (hsame (hreg m))

theorem Change.sound (h : Change s a t) (hs : s.Sound) : t.Sound := by
  refine ⟨fun m id hid => ?_, fun m => ?_, fun id e' he' r hr => ?_⟩
  · rcases h.mem_registered hid with hold | ⟨_, hnew⟩
    · obtain ⟨e, he, howner⟩ := hs.owned m id hold
      obtain ⟨e', he', hevolves⟩ := h.evolves he
      exact ⟨e', he', hevolves.owner_eq.trans howner⟩
    · exact hnew
  · have hold := hs.ordered m
    cases h with
    | same hbooks _ => rwa [hbooks.registered m]
    | registered e _ _ hexp hreg _ =>
      rcases hreg m with hkept | ⟨_, hadded⟩
      · rwa [hkept]
      · -- the new number is greater than those of all expectations that exist
        rw [hadded, List.pairwise_append]
        refine ⟨hold, List.pairwise_singleton _ _, fun id hid last hlast => ?_⟩
        obtain ⟨e', he', _⟩ := hs.owned m id hid
        obtain rfl := List.mem_singleton.mp hlast
        exact expectation?_lt he'
    | configured _ _ _ _ _ hreg _ => rwa [hreg m]
    | unset _ hreg _ =>
      rcases hreg m with hkept | ⟨_, hfiltered⟩
      · rwa [hkept]
      · rw [hfiltered]
        exact hold.filter _
    | answered _ _ _ _ _ _ _ hreg _ => rwa [hreg m]
  · have hlength := h.length_le
    rcases h.origin he' with ⟨e, he, hevolves⟩ | hact
    · suffices hbefore : r < s.expectations.length by omega
      cases hevolves with
      | kept => exact hs.known id e' he r hr
      | @configured setting _ happly =>
        rcases (Expectation.applied_of_apply happly).mem_requires hr with hold | ⟨expectations, hsetting, hgiven⟩
        · exact hs.known id e he r hold
        · -- only expectations that exist get through `known`
          cases setting with
          | requires given =>
            simp only [known, Setting.requires.injEq] at hsetting
            subst hsetting
            simpa using (List.mem_filter.mp hgiven).2
          | _ => simp [known] at hsetting
      | counted _ _ => exact hs.known id e he r hr
    · rw [(Act.isNew_of_registered? hact).requires] at hr
      simp at hr

/-- A new expectation is the last one of its mock. -/
theorem expected_register (hs : s.Sound) {e : Expectation} (hm : e.owner < s.mocks.length) :
    (s.register e).1.expected e.owner = s.expected e.owner ++ [(s.expectations.length, e)] := by
  obtain ⟨hexpectations, -⟩ := register_books s e
  have hold : ∀ id ∈ s.registered e.owner,
      ((s.register e).1.expectation? id).map (id, ·) = (s.expectation? id).map (id, ·) := fun id hid => by
    obtain ⟨old, hfound, -⟩ := hs.owned e.owner id hid
    have hlt : id < s.expectations.length := (List.getElem?_eq_some_iff.mp hfound).1
    rw [expectation?, hexpectations, List.getElem?_append_left hlt, expectation?]
  rw [expected_eq, expected_eq, registered_register, if_pos ⟨rfl, hm⟩, List.filterMap_append,
    List.filterMap_congr hold]
  simp [expectation?, hexpectations]

theorem sound_run (acts : List Act) : (run {} acts).Sound :=
  run_keeps acts sound_empty fun s a hs => (change s a).sound hs

end TraitMock.Session
