import TraitMock.Proofs.Mock.Turns
import TraitMock.Proofs.Mock.Withdrawal

namespace TraitMock

/-- Two replies are both answers or both refusals, the latter with the same header. If `answers` holds answers are the
    same, if `refusals` holds refusals are. -/
inductive Reply.Similar (answers refusals : Prop) : Reply → Reply → Prop where
  | answered {r r' : Reply} (hr : r.isRejected = false) (hr' : r'.isRejected = false) (heq : answers → r' = r) :
    Similar answers refusals r r'
  | refused {n n' : Notice} (h : Selection.SimilarNotices refusals n n') :
    Similar answers refusals (.rejected n) (.rejected n')

/-- Two queries both find an expectation or fail both, in the same way as refused calls do. -/
inductive SimilarQueries (exact : Prop) : Except Notice Unit → Except Notice Unit → Prop where
  | found : SimilarQueries exact (.ok ()) (.ok ())
  | refused {n n' : Notice} (h : Selection.SimilarNotices exact n n') : SimilarQueries exact (.error n) (.error n')

namespace Session

open Selection MatchLog

/-- Neither the arguments of a call nor what the expectations of its method compare with are matchers of a set. -/
structure Apart (inside : Nat → Prop) (s : Session) (m : Nat) (method : String) (args : Arguments) : Prop where
  args : args.Outside inside
  compares : ∀ x ∈ ofMethod (s.expected m) method, x.2.ComparesOutside inside

/-- The expectation that a call picks is not answered by a function that looks at the notes inside a set. -/
def AnswersApart (inside : Nat → Prop) (s : Session) (m : Nat) (method : String) (args : Arguments) : Prop :=
  ∀ id e, s.Picks m method args id e → e.AnswersOutside inside

/-- What is asked of the mocks of two sessions has the same results, where the second one lacks the number `c`. Only
    texts that show matchers inside a set may differ, and answers of functions that look at their notes. -/
structure SameResults (c : Nat) (inside : Nat → Prop) (s t : Session) : Prop where
  expected : ∀ m, t.expected m = (s.expected m).map (renumbered c)
  picks : ∀ m method args id e, s.Picks m method args id e → t.Picks m method args (passed c id) (e.passing c)
  call : ∀ m method args, Reply.Similar (s.AnswersApart inside m method args) (s.Apart inside m method args)
    (s.call m method args).2 (t.call m method args).2
  callable : ∀ m method args,
    SimilarQueries (s.Apart inside m method args) (s.callable m method args).2 (t.callable m method args).2
  audit : ∀ m, Without.SameCheck s t (s.audit m) (t.audit m)
  assertCallCount : ∀ m method want,
    Without.SameCheck s t (s.assertCallCount m method want) (t.assertCallCount m method want)

variable {c m id : Nat} {inside : Nat → Prop} {s t : Session} {e : Expectation} {a : Act} {method : String}
  {args : Arguments}

/-- The expectation with the number `c` is on no mock. -/
def Lacks (s : Session) (c : Nat) : Prop := ∀ m, c ∉ s.registered m

theorem Lacks.ne (h : s.Lacks c) : ∀ x ∈ s.expected m, x.1 ≠ c :=
  fun _ hx hc => h m (hc ▸ (mem_expected.mp hx).1)

theorem Lacks.not_picks (h : s.Lacks c) (m : Nat) (method : String) (args : Arguments) (e : Expectation) :
    ¬s.Picks m method args c e :=
  fun hpicks => h m hpicks.registered

private theorem Lacks.spares (h : s.Lacks c) (a : Act) : s.Spares c inside a where
  unpicked m method args _ := h.not_picks m method args
  unfound m method args _ := .inr (h.not_picks m method args)
  unaudited m _ := h m
  compares m _ he := absurd (mem_expected.mp he).1 (h m)

namespace Without

theorem alike (h : Without c inside s t) (hlacks : s.Lacks c) (m : Nat) (method : String) (args : Arguments) :
    SamePick c (SimilarNotices (s.Apart inside m method args)) (Selection.select s.log (s.expected m) method args).1
      (Selection.select t.log (t.expected m) method args).1 := by
  rw [h.expected m]
  exact select_leaveOut_of_absent h.notes hlacks.ne fun hapart => ⟨hapart.args, hapart.compares⟩

private theorem similar_call (h : Without c inside s t) (hlacks : s.Lacks c) (m : Nat) (method : String) (args : Arguments) :
    Reply.Similar (s.AnswersApart inside m method args) (s.Apart inside m method args) (s.call m method args).2
      (t.call m method args).2 := by
  have hnot := hlacks.not_picks m method args
  rcases h.call_cases (fun n => ⟨rfl, fun _ => rfl⟩) (h.alike hlacks m method args) hnot with
    ⟨n, n', hsimilar, hcall, hcall'⟩ | ⟨id, e, -, hpicks, hmet, hpicks', hmet'⟩
  · rw [hcall, hcall']
    exact .refused hsimilar
  · rw [hpicks.call_eq hmet, hpicks'.call_eq hmet']
    refine .answered (Reply.isRejected_ofAnswer _) (Reply.isRejected_ofAnswer _) fun hapart => ?_
    have hnotes := (h.select hnot fun x hx hc => absurd hc (hlacks.ne x hx)).2
    exact congrArg Reply.ofAnswer ((hapart id e hpicks).answer_eq hnotes args)

private theorem similar_callable (h : Without c inside s t) (hlacks : s.Lacks c) (m : Nat) (method : String)
    (args : Arguments) :
    SimilarQueries (s.Apart inside m method args) (s.callable m method args).2 (t.callable m method args).2 := by
  have halike := h.alike hlacks m method args
  have hquery : ∀ u : Session, (u.callable m method args).2 =
      (Selection.select u.log (u.expected m) method args).1.map fun _ => () := fun _ => rfl
  rw [hquery, hquery]
  generalize (Selection.select s.log (s.expected m) method args).1 = r at halike ⊢
  generalize (Selection.select t.log (t.expected m) method args).1 = r' at halike ⊢
  cases halike with
  | picked id => exact .found
  | refused hsimilar => exact .refused hsimilar

private theorem picks_of_lacks (h : Without c inside s t) (hlacks : s.Lacks c) (hpicks : s.Picks m method args id e) :
    t.Picks m method args (passed c id) (e.passing c) := by
  have hid : id ≠ c := fun hc => hlacks m (hc ▸ hpicks.registered)
  have halike := h.alike hlacks m method args
  rw [hpicks.selected] at halike
  generalize ht : (Selection.select t.log (t.expected m) method args).1 = r at halike
  cases halike
  exact h.picks hpicks hid ht

private theorem sameCheck_assertCallCount (h : Without c inside s t) (hlacks : s.Lacks c) (m : Nat) (method : String)
    (want : Nat) : SameCheck s t (s.assertCallCount m method want) (t.assertCallCount m method want) := by
  have hcalls : t.calls m = s.calls m := by
    unfold calls
    rw [h.mock? m]
    cases s.mock? m <;> rfl
  have hfind : ((t.expected m).find? fun x => x.2.method == method) =
      ((s.expected m).find? fun x => x.2.method == method).map (renumbered c) := by
    rw [h.expected_of_absent (hlacks m), List.find?_map]
    rfl
  unfold assertCallCount
  dsimp only
  rw [show t.helper.calls m = t.calls m from rfl, show s.helper.calls m = s.calls m from rfl, hcalls,
    show t.helper.expected m = t.expected m from rfl, show s.helper.expected m = s.expected m from rfl, hfind]
  split
  · exact ⟨rfl, [], by simp [helper, Spy.helper], by simp [helper, Spy.helper]⟩
  · cases (s.expected m).find? fun x => x.2.method == method <;> exact ⟨rfl, [_], rfl, rfl⟩

private theorem sameResults (h : Without c inside s t) (hlacks : s.Lacks c) : SameResults c inside s t where
  expected m := h.expected_of_absent (hlacks m)
  picks _ _ _ _ _ := h.picks_of_lacks hlacks
  call := h.similar_call hlacks
  callable := h.similar_callable hlacks
  audit m := (h.audit (hlacks m)).2
  assertCallCount := h.sameCheck_assertCallCount hlacks

/-- A run of acts that leave the expectation alone does the same without it. -/
theorem run {acts : List Act} (h : Without c inside s t) (hspares : s.Along (Spares c inside) acts)
    (hrequires : ∀ a ∈ acts, ¬a.Requires c) :
    Without c inside (s.run acts) (t.run (acts.flatMap (·.leaveOut c))) := by
  induction acts generalizing s t with
  | nil => exact h
  | cons a acts ih =>
    obtain ⟨hfirst, hrest⟩ := hspares
    obtain ⟨ha, hacts⟩ := List.forall_mem_cons.mp hrequires
    rw [run_cons, List.flatMap_cons, run_append]
    exact ih (h.after hfirst ha) hrest hacts

end Without

/-- A mock has no expectation with the next number. -/
theorem Sound.lt_of_mem_expected (hs : s.Sound) {mock : Mock} (hmock : s.mock? m = some mock)
    (hid : id ∈ mock.expected) : id < s.expectations.length := by
  obtain ⟨e, he, -⟩ := hs.owned m id (by rwa [registered_of_mock? hmock])
  exact expectation?_lt he

private theorem leaveOut_of_lt {mock : Mock} (h : ∀ id ∈ mock.expected, id < c) : mock.leaveOut c = mock := by
  have hothers : mock.expected.filter (· ≠ c) = mock.expected :=
    List.filter_eq_self.mpr fun id hid => decide_eq_true (Nat.ne_of_lt (h id hid))
  have hpassed : mock.expected.map (passed c) = mock.expected :=
    (List.map_congr_left fun id hid => passed_of_lt (h id hid)).trans (List.map_id _)
  rw [Mock.leaveOut, hothers, hpassed]

theorem Sound.leaveOut_mocks (hs : s.Sound) : s.mocks.map (·.leaveOut s.expectations.length) = s.mocks := by
  refine (List.map_congr_left fun mock hmem => ?_).trans (List.map_id _)
  obtain ⟨m, hmock⟩ := List.mem_iff_getElem?.mp hmem
  exact leaveOut_of_lt fun id hid => hs.lt_of_mem_expected hmock hid

/-- The mocks before an expectation is registered are those after it without that expectation. -/
theorem Sound.leaveOut_register (hs : s.Sound) (e : Expectation) :
    (s.register e).1.mocks.map (·.leaveOut s.expectations.length) = s.mocks := by
  unfold register
  cases hmock : s.mock? e.owner with
  | none =>
    simp only [show Session.mock? { s with expectations := s.expectations ++ [e] } e.owner = none from hmock]
    exact hs.leaveOut_mocks
  | some mock =>
    have hadded : Mock.leaveOut s.expectations.length
        { mock with expected := mock.expected ++ [s.expectations.length] } = mock.leaveOut s.expectations.length := by
      simp [Mock.leaveOut]
    obtain ⟨hlt, hget⟩ := List.getElem?_eq_some_iff.mp hmock
    simp only [show Session.mock? { s with expectations := s.expectations ++ [e] } e.owner = some mock from hmock]
    calc (s.mocks.set e.owner { mock with expected := mock.expected ++ [s.expectations.length] }).map
          (·.leaveOut s.expectations.length)
        = (s.mocks.set e.owner mock).map (·.leaveOut s.expectations.length) := by
          rw [List.map_set, List.map_set, hadded]
      _ = s.mocks.map (·.leaveOut s.expectations.length) := by rw [← hget, List.set_getElem_self]
      _ = s.mocks := hs.leaveOut_mocks

/-- The session before an expectation is registered is the one after it without that expectation. -/
theorem Sound.without_register (hs : s.Sound) (hrequires : e.requires = []) :
    Without s.expectations.length inside (s.register e).1 s := by
  obtain ⟨hexp, -, -⟩ := register_books s e
  have hold : ∀ j < s.expectations.length, (s.register e).1.expectation? j = s.expectation? j := fun j hj => by
    rw [expectation?, hexp, List.getElem?_append_left hj]
    rfl
  have hnew : (s.register e).1.expectation? s.expectations.length = some e := by
    rw [expectation?, hexp, List.getElem?_concat_length]
  refine ⟨by rw [hexp]; simp, by rw [hexp]; simp, fun j hj => ?_, fun j e' he' => ?_, ?_, ?_⟩
  · rcases Nat.lt_or_gt_of_ne hj with hlt | hgt
    · rw [hold j hlt, passed_of_lt hlt]
      cases he' : s.expectation? j with
      | none => rfl
      | some e' => exact congrArg some (Expectation.passing_of_lt (hs.known j e' he')).symm
    · have hnone : (s.register e).1.expectation? j = none := by
        rw [expectation?, hexp, List.getElem?_eq_none (by simp; omega)]
      have hnone' : s.expectation? (passed s.expectations.length j) = none := by
        rw [expectation?, passed, if_pos hgt, List.getElem?_eq_none (by omega)]
      rw [hnone, hnone']
      rfl
  · have hlt := expectation?_lt he'
    rw [hexp, List.length_append, List.length_singleton] at hlt
    intro hmem
    by_cases hj : j < s.expectations.length
    · rw [hold j hj] at he'
      have hrequired := hs.known j e' he' _ hmem
      omega
    · obtain rfl : j = s.expectations.length := by omega
      obtain rfl : e = e' := Option.some.inj (hnew.symm.trans he')
      simp [hrequires] at hmem
  · exact (hs.leaveOut_register e).symm
  · rw [log_register]
    exact .refl s.log

/-- The error that a mock does not have an expectation. -/
def notFound (e : Expectation) : Notice :=
  (Notice.row ⟨Notice.expectationNotFound, [], []⟩ "method" e.signature).row "created at" e.location

theorem unset_of_found {mock : Mock} (hmock : s.mock? m = some mock) (hfound : s.expectation? id = some e) :
    s.unset m id =
      if mock.expected.contains id then
        s.helper.putMock m { mock with expected := mock.expected.filter (· ≠ id) }
      else s.helper.reportError (notFound e) := by
  unfold unset
  simp only [show s.helper.mock? m = some mock from hmock, show s.helper.expectation? id = some e from hfound]
  rfl

/-- Taking an expectation off a mock, that mock does not have it any more. -/
theorem not_mem_registered_unset (hfound : s.expectation? id = some e) (m : Nat) :
    id ∉ (s.unset m id).registered m := by
  cases hmock : s.mock? m with
  | none =>
    have hnone : (s.unset m id).registered m = [] := by
      unfold unset
      simp only [show s.helper.mock? m = none from hmock, Session.registered]
      rfl
    simp [hnone]
  | some mock =>
    rw [unset_of_found hmock hfound]
    have hhelper : s.helper.mock? m = some mock := hmock
    split
    · rw [registered_putMock hhelper, if_pos rfl]
      simp
    · rename_i hnot
      have hregistered : (s.helper.reportError (notFound e)).registered m = mock.expected := registered_of_mock? hmock
      rw [hregistered]
      simpa using hnot

/-- An expectation stays that of the mock with which it was registered. -/
theorem owner_run (acts : List Act) (hfound : s.expectation? id = some e) :
    ∃ e', (s.run acts).expectation? id = some e' ∧ e'.owner = e.owner := by
  refine run_keeps (P := fun u => ∃ e', u.expectation? id = some e' ∧ e'.owner = e.owner) acts ⟨e, hfound, rfl⟩ ?_
  rintro u a ⟨e', he', howner⟩
  obtain ⟨next, hnext, hevolves⟩ := (change u a).evolves he'
  exact ⟨next, hnext, hevolves.owner_eq.trans howner⟩

/-- When its own mock does not have it any more, an expectation is on no mock. -/
theorem Sound.lacks_unset (hs : s.Sound) (hfound : s.expectation? id = some e) (howner : e.owner = m) :
    (s.unset m id).Lacks id := by
  intro n hmem
  obtain ⟨-, hregistered, -⟩ := unset_books s m id
  by_cases hn : n = m
  · exact not_mem_registered_unset hfound m (hn ▸ hmem)
  · rcases hregistered n with hsame | ⟨hsame, -⟩
    · obtain ⟨e', he', howner'⟩ := hs.owned n id (hsame ▸ hmem)
      obtain rfl : e' = e := Option.some.inj (he'.symm.trans hfound)
      exact hn (howner'.symm.trans howner)
    · exact hn hsame

/-- An expectation that is on no mock is never put on one. -/
theorem Lacks.after (h : s.Lacks c) (hexists : c < s.expectations.length) (a : Act) : (s.after a).Lacks c := by
  intro m hmem
  rcases (change s a).mem_registered hmem with hold | ⟨hnew, -⟩
  · exact h m hold
  · omega

theorem Lacks.along (h : s.Lacks c) (hexists : c < s.expectations.length) (acts : List Act) :
    s.Along (Spares c inside) acts := by
  induction acts generalizing s with
  | nil => trivial
  | cons a acts ih =>
    have hlength := (change s a).length_le
    exact ⟨h.spares a, ih (h.after hexists a) (by omega)⟩

theorem Lacks.run (h : s.Lacks c) (hexists : c < s.expectations.length) (acts : List Act) : (s.run acts).Lacks c := by
  have hkept := run_keeps (P := fun u => u.Lacks c ∧ c < u.expectations.length) (s := s) acts ⟨h, hexists⟩
    fun u a hu => ⟨hu.1.after hu.2 a, Nat.lt_of_lt_of_le hu.2 (change u a).length_le⟩
  exact hkept.1

/-- Taking an expectation off a mock that does not have it reports one error and does nothing else. -/
structure UnsetFails (s : Session) (m id : Nat) : Prop where
  mocks : (s.unset m id).mocks = s.mocks
  expectations : (s.unset m id).expectations = s.expectations
  log : (s.unset m id).log = s.log
  fatals : (s.unset m id).spy.fatals = s.spy.fatals
  error : ∃ n : Notice, n.header = Notice.expectationNotFound ∧ (s.unset m id).spy.errors = s.spy.errors ++ [n.text]

private theorem unset_of_not_mem {mock : Mock} (hmock : s.mock? m = some mock) (hfound : s.expectation? id = some e)
    (hnot : id ∉ s.registered m) : s.UnsetFails m id := by
  have hcontains : mock.expected.contains id = false := by
    rw [registered_of_mock? hmock] at hnot
    simpa using hnot
  have hunset : s.unset m id = s.helper.reportError (notFound e) := by
    rw [unset_of_found hmock hfound, hcontains]
    rfl
  exact ⟨by rw [hunset]; rfl, by rw [hunset]; rfl, by rw [hunset]; rfl, by rw [hunset]; rfl, notFound e, rfl,
    by rw [hunset]; rfl⟩

/-- An expectation is registered, set up and taken off its mock again. In between no call picked it and no audit of its
    mock asked for it, and it was made no prerequisite. Then everything that is asked of the mocks later has the same
    result as in the run without that expectation, apart from what shows the notes of matchers that it was compared
    with, or of any matchers if a query found it. Taking an expectation off a mock that does not have it reports one
    error and does nothing else. -/
theorem unset_is_as_never_registered (inside : Nat → Prop) (before between later : List Act) (registration : Act)
    (e : Expectation) (hregistration : registration.registered? = some e)
    (hspares : (run {} (before ++ [registration])).Along
      (Spares (run {} before).expectations.length inside) between)
    (hrequires : ∀ a ∈ between ++ later, ¬a.Requires (run {} before).expectations.length) :
    SameResults (run {} before).expectations.length inside
      (run {} (before ++ registration :: between ++
        .unset e.owner (run {} before).expectations.length :: later))
      (run {} (before ++ (between ++ later).flatMap (·.leaveOut (run {} before).expectations.length))) ∧
    ∀ acts m id old, m < (run {} acts).mocks.length → (run {} acts).expectation? id = some old →
      id ∉ (run {} acts).registered m → (run {} acts).UnsetFails m id := by
  refine ⟨?_, fun acts m id old hm hfound hnot => unset_of_not_mem (List.getElem?_eq_getElem hm) hfound hnot⟩
  have hsound := sound_run before
  have hregister := after_of_registered? (run {} before) hregistration
  have hstart : Without (run {} before).expectations.length inside ((run {} before).after registration)
      (run {} before) := by
    rw [hregister]
    exact hsound.without_register (Act.isNew_of_registered? hregistration).requires
  have hnew : ((run {} before).after registration).expectation? (run {} before).expectations.length = some e := by
    rw [hregister, expectation?, (register_books _ e).1, List.getElem?_concat_length]
  generalize hc : (run {} before).expectations.length = c at *
  rw [run_append, run_cons, run_nil] at hspares
  obtain ⟨hbetween, hlater⟩ := List.forall_mem_append.mp hrequires
  -- first with the expectation registered, then without
  have hregistered := hstart.run hspares hbetween
  obtain ⟨now, hnow, howner⟩ := owner_run between hnew
  have hsoundNow : (((run {} before).after registration).run between).Sound := by
    have hall := sound_run (before ++ registration :: between)
    rwa [run_append, run_cons] at hall
  have hunset := hregistered.unset e.owner c
  rw [Act.leaveOut, if_pos rfl, run_nil] at hunset
  have hlacks := hsoundNow.lacks_unset hnow howner
  have hend := hunset.run (hlacks.along hunset.lt_length later) hlater
  have hresults := hend.sameResults (hlacks.run hunset.lt_length later)
  rw [run_append, run_append, run_cons, run_cons, run_append, List.flatMap_append, run_append]
  exact hresults

/-- A matcher that panics whatever it is to judge. -/
def moody : Matcher := ⟨0, .byValue fun _ => .error (.text "not today")⟩

/-- The notes after it judged something. -/
def moodyNotes : MatchLog := ({} : MatchLog).note 0 (some (.panic "not today"))

/-- The expectation that is taken off again. -/
def getMoody : Expectation :=
  { owner := 0, method := "Get", location := "door.rs:1", pattern? := some [.matcher moody] }

def getAny : Expectation := .onAny 0 "Get" "door.rs:2"

/-- An expectation of another method that shares the matcher. -/
def openMoody : Expectation :=
  { owner := 0, method := "Open", location := "door.rs:3", pattern? := some [.matcher moody] }

def registerMoody : Act := .on 0 "Get" [.matcher moody] "door.rs:1"

/-- The call is compared with `getMoody` and taken by `getAny`. -/
def getsKey : List Act :=
  [.onAny 0 "Get" "door.rs:2", .on 0 "Open" [.matcher moody] "door.rs:3", .call 0 "Get" [.text "key"]]

private theorem diff_moody (v : Value) :
    Arguments.diff {} [.matcher moody] [v] =
      (⟨[⟨0, false, (Value.matcher moody).render moodyNotes, v.render moodyNotes⟩]⟩, moodyNotes) := by
  simp only [Arguments.diff, Arguments.diffLines]
  rfl

theorem select_getsKey :
    Selection.select {} [(0, getMoody), (1, getAny), (2, openMoody)] "Get" [.text "key"] = (.ok 1, moodyNotes) := by
  simp [Selection.select, firstMatch, matches_, Expectation.callable, Expectation.acceptsAny,
    Expectation.comparedWith?, diff_moody, Arguments.Diff.isMatch, Arguments.Diff.failures, Expectation.onAny,
    openMoody, getMoody, getAny]

private theorem comparesInside_getMoody : getMoody.ComparesInside (· = 0) := by
  rintro pattern hpattern v hv m rfl
  obtain rfl : [.matcher moody] = pattern := Option.some.inj hpattern
  obtain rfl : m = moody := by simpa using hv
  rfl

private theorem spares_getsKey :
    (run {} ([.newMock false] ++ [registerMoody])).Along (Spares 0 (· = 0)) getsKey := by
  have hcompares : ∀ {u : Session}, u.expectation? 0 = some getMoody → ∀ m e, (0, e) ∈ u.expected m →
      e.ComparesInside (· = 0) := by
    intro u hfound m e he
    obtain rfl : getMoody = e := Option.some.inj (hfound.symm.trans (mem_expected.mp he).2)
    exact comparesInside_getMoody
  refine ⟨⟨nofun, nofun, nofun, hcompares rfl⟩, ⟨nofun, nofun, nofun, hcompares rfl⟩,
    ⟨fun m method args hcall e hpicks => ?_, nofun, nofun, hcompares rfl⟩, trivial⟩
  cases hcall
  have hselected : (Selection.select {} [(0, getMoody), (1, getAny), (2, openMoody)] "Get" [.text "key"]).1 = .ok 0 :=
    hpicks.selected
  rw [select_getsKey] at hselected
  cases hselected

/-- Without `getMoody` the mock is asked with the same results. Another mock than that of an expectation does not take
    it off. -/
theorem results_without_getMoody :
    SameResults 0 (· = 0) (run {} ([.newMock false] ++ registerMoody :: getsKey ++ [.unset 0 0]))
      (run {} ([.newMock false] ++ (getsKey ++ []).flatMap (Act.leaveOut 0))) ∧
    (run {} [.newMock false, .newMock false, registerMoody]).UnsetFails 1 0 := by
  have hrequires : ∀ a ∈ getsKey ++ [], ¬a.Requires 0 := by
    rintro a ha ⟨id, expectations, rfl, -⟩
    simp [getsKey] at ha
  obtain ⟨hresults, hfails⟩ :=
    unset_is_as_never_registered (· = 0) [.newMock false] getsKey [] registerMoody getMoody rfl spares_getsKey hrequires
  exact ⟨hresults, hfails _ 1 0 getMoody (by decide) rfl (by decide)⟩

theorem call_openMoody {u : Session} {i j : Nat} (h : u.expected 0 = [(i, getAny.counted), (j, openMoody)]) :
    (u.call 0 "Open" []).2 = .rejected ⟨Notice.unexpectedCall,
      [("method", Arguments.signature "Open" []), ("closest", openMoody.signature), ("created at", "door.rs:3"),
        ("diff", (Arguments.diff u.log [.matcher moody] []).1.text)], []⟩ := by
  refine congrArg Prod.snd (call_of_select_error ?_)
  rw [h]
  simp [Selection.select, firstMatch, matches_, Expectation.callable, Expectation.acceptsAny, firstProxy, closest,
    diffOf, Expectation.comparedWith?, Arguments.Diff.isMatch, Arguments.Diff.failures, Expectation.onAny,
    Arguments.diff, Arguments.diffLines, Expectation.counted, openMoody, getAny]
  rfl

private theorem moody_shows_refusal :
    (Arguments.diff moodyNotes [.matcher moody] []).1.text ≠ (Arguments.diff {} [.matcher moody] []).1.text := by
  simp only [Arguments.Diff.text, Arguments.diff, Arguments.diffLines, List.map, String.intercalate_singleton]
  decide

/-- Though it was never picked by a call, what `getMoody` was compared with shows in the text of a later refusal. -/
theorem taken_off_matcher_leaves_note :
    (replies {} ([.newMock false] ++ registerMoody :: getsKey)).all (fun r => !r.reply.isRejected) = true ∧
    ((run {} ([.newMock false] ++ registerMoody :: getsKey ++ [.unset 0 0])).call 0 "Open" []).2 ≠
      ((run {} ([.newMock false] ++ (getsKey ++ []).flatMap (Act.leaveOut 0))).call 0 "Open" []).2 := by
  let registered : Session := run {} ([.newMock false] ++ registerMoody :: getsKey.dropLast)
  let unregistered : Session := run {} ([.newMock false] ++ getsKey.dropLast)
  have hpicks : registered.Picks 0 "Get" [.text "key"] 1 getAny :=
    ⟨congrArg Prod.fst select_getsKey, by decide, rfl, rfl, rfl⟩
  have hpicks' : unregistered.Picks 0 "Get" [.text "key"] 0 getAny := ⟨rfl, by decide, rfl, rfl, rfl⟩
  have hcall := hpicks.call_eq rfl
  have hcall' := hpicks'.call_eq rfl
  have hgot : run {} ([.newMock false] ++ registerMoody :: getsKey) =
      (registered.call 0 "Get" [.text "key"]).1 := rfl
  have hgot' : run {} ([.newMock false] ++ (getsKey ++ []).flatMap (Act.leaveOut 0)) =
      (unregistered.call 0 "Get" [.text "key"]).1 := rfl
  have hrun : run {} ([.newMock false] ++ registerMoody :: getsKey ++ [.unset 0 0]) =
      (registered.call 0 "Get" [.text "key"]).1.unset 0 0 := by
    rw [run_append, hgot, run_cons, run_nil]
    rfl
  constructor
  · have hreplies : replies {} ([.newMock false] ++ registerMoody :: getsKey) =
        [⟨0, "Get", [.text "key"], (registered.call 0 "Get" [.text "key"]).2⟩] := rfl
    rw [hreplies, hcall]
    rfl
  · rw [hrun, hgot', hcall, hcall']
    have hnotes : registered.selectionLog 0 "Get" [.text "key"] = moodyNotes := congrArg Prod.snd select_getsKey
    have hnotes' : unregistered.selectionLog 0 "Get" [.text "key"] = {} := rfl
    rw [hnotes, hnotes', call_openMoody (i := 1) (j := 2), call_openMoody (i := 0) (j := 1)]
    · simp only [ne_eq, Reply.rejected.injEq, Notice.mk.injEq, List.cons.injEq, Prod.mk.injEq, true_and, and_true]
      exact moody_shows_refusal
    · rfl
    · rfl

end Session
end TraitMock
