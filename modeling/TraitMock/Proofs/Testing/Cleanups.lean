import TraitMock.Mock.ContextSession
import TraitMock.Proofs.Mock.Verdict
import TraitMock.Proofs.Testing.Closing

namespace TraitMock

open Cleanup (membersAll nestedAll behindHalt halts Generations OnlyFirstHalts)
open Closing (ClosedWith ClosedAgain IsFaithful)

namespace Session

variable {s : Session} {m : Nat}

theorem foldl_cleanup (cs : List Cleanup) (spy : Spy) : cs.foldl Spy.cleanup spy =
    { spy with cleanups := spy.cleanups ++ cs, registered := spy.registered + cs.length } := by
  induction cs generalizing spy with
  | nil => simp
  | cons c rest ih =>
    rw [List.foldl_cons, ih]
    simp [Spy.cleanup, Nat.add_assoc, Nat.add_comm 1]

/-- The report of the audit of a mock: there is one if it is the first audit and the mock refused no call. -/
def auditReport (s : Session) (m : Nat) : List String :=
  match s.mock? m with
  | none => []
  | some mock => if mock.audited? = none ∧ mock.failed = false then s.shortfall m else []

/-- The errors that a cleanup reports. -/
def reported (c : Cleanup) (s : Session) : List String :=
  match c with
  | .audit m => s.auditReport m
  | .script .error text _ => [text]
  | .script _ _ _ => []

theorem errors_audit (s : Session) (m : Nat) : (s.audit m).1.spy.errors = s.spy.errors ++ s.auditReport m := by
  cases hmock : s.mock? m with
  | none =>
    have hhelper : s.helper.mock? m = none := hmock
    simp only [audit, hhelper, auditReport, hmock, List.append_nil]
    rfl
  | some mock =>
    simp only [auditReport, hmock]
    cases haudited : mock.audited? with
    | some verdict =>
      have hverdict : s.verdict? m = some verdict := by rw [verdict?, hmock]; exact haudited
      rw [audit_of_verdict hverdict, if_neg (by simp), List.append_nil]
      rfl
    | none =>
      cases hfailed : mock.failed with
      | true =>
        rw [audit_of_failed hmock haudited hfailed, if_neg (by simp), List.append_nil]
        rfl
      | false =>
        rw [(audit_of_not_failed hmock haudited hfailed).1, if_pos ⟨rfl, rfl⟩]

/-- An audit registers no cleanups. -/
theorem cleanups_audit (s : Session) (m : Nat) :
    (s.audit m).1.spy.cleanups = s.spy.cleanups ∧ (s.audit m).1.spy.registered = s.spy.registered := by
  unfold audit
  dsimp only
  split
  · exact ⟨rfl, rfl⟩
  · split
    · exact ⟨rfl, rfl⟩
    · split
      · exact ⟨rfl, rfl⟩
      · split <;> exact ⟨rfl, rfl⟩

theorem isFaithful_closing : closing.IsFaithful where
  pending_clear _ := rfl
  pending_run c s := by
    cases c with
    | audit m => exact (cleanups_audit s m).1.trans (List.append_nil _).symm
    | script how text nested =>
      simp only [closing, foldl_cleanup]
      cases how <;> rfl
  halts_run c s := by
    cases c with
    | audit m => rfl
    | script how text nested => cases how <;> rfl

theorem errors_run (c : Cleanup) (s : Session) : (closing.run c s).1.spy.errors = s.spy.errors ++ reported c s := by
  cases c with
  | audit m => exact errors_audit s m
  | script how text nested =>
    simp only [closing, foldl_cleanup]
    cases how with
    | error => rfl
    | log => exact (List.append_nil _).symm
    | fatal => exact (List.append_nil _).symm
    | panic => exact (List.append_nil _).symm

/-- Closing collects what the cleanups report. -/
theorem errors_close (s : Session) :
    s.close.1.spy.errors = s.spy.errors ++ (closing.runs s).flatMap fun x => reported x.1 x.2 :=
  Closing.close_reports (fun s : Session => s.spy.errors) reported (fun _ => rfl) errors_run s

private theorem registered_run (c : Cleanup) (s : Session) :
    (closing.run c s).1.spy.registered = s.spy.registered + c.nested.length := by
  cases c with
  | audit m => exact (cleanups_audit s m).2
  | script how text nested =>
    simp only [closing, foldl_cleanup]
    cases how <;> rfl

/-- Closing registers what the cleanups register that are run. -/
theorem registered_close (s : Session) :
    s.close.1.spy.registered = s.spy.registered + (nestedAll (closing.order s)).length := by
  let P : Session × List (Cleanup × Session) → Prop := fun x =>
    x.1.spy.registered = s.spy.registered + (nestedAll (x.2.map (·.1))).length
  have hstep : ∀ c x, P x → P (closing.watched.run c x).1 := by
    intro c x hx
    change (closing.run c x.1).1.spy.registered = s.spy.registered + (nestedAll ((x.2 ++ [(c, x.1)]).map _)).length
    rw [registered_run, show x.1.spy.registered = _ from hx, List.map_append, Cleanup.nestedAll_append]
    simp [nestedAll, Nat.add_assoc]
  have hkept : P (closing.watched.close (s, [])).1 := Closing.close_keeps (fun _ hx => hx) hstep rfl
  rw [close, Closing.close_watched (m := closing) (s, [])]
  exact hkept

/-- Closing a spy ran `order`, and there is nothing left to be run; `past` cleanups were run by earlier closings. -/
structure ClosesAll (s : Session) (past : Nat) (order : List Cleanup) : Prop where
  order_eq : closing.order s = order
  returns : s.close.2 = none
  cleanups : s.close.1.spy.cleanups = []
  again : s.close.1.close = (s.close.1, none) ∧ closing.order s.close.1 = []
  registered : s.close.1.spy.registered = past + order.length
  errors : s.close.1.spy.errors = s.spy.errors ++ (closing.runs s).flatMap fun x => reported x.1 x.2

private theorem closesAll {past : Nat} (hcalm : ∀ c ∈ membersAll s.spy.cleanups, c.halts = false)
    (hpast : s.spy.registered = past + s.spy.cleanups.length) :
    Generations s.spy.cleanups (closing.order s) [] ∧ (closing.order s).Perm (membersAll s.spy.cleanups) ∧
      s.ClosesAll past (closing.order s) := by
  obtain ⟨earlier, last, hclosed⟩ := isFaithful_closing.close s
  obtain ⟨hhalted, hleft, hgenerations, hperm⟩ := hclosed.of_calm hcalm
  refine ⟨hgenerations, hperm, rfl, ?_, hleft, Closing.close_of_pending_eq_nil hleft, ?_, errors_close s⟩
  · simpa [close] using hhalted
  · have hlength := hgenerations.registered.length_eq
    rw [List.append_nil, List.length_append] at hlength
    rw [registered_close, hpast, ← hlength, Nat.add_assoc]
    rfl

end Session

namespace Context

theorem foldl_cleanup (cs : List Cleanup) (c : Context) :
    cs.foldl cleanup c = { c with cleanups := c.cleanups ++ cs } := by
  induction cs generalizing c with
  | nil => simp
  | cons x rest ih =>
    rw [List.foldl_cons, ih]
    simp [cleanup]

end Context

namespace ContextSession

/-- The errors that a cleanup reports. -/
def reported (c : Cleanup) (t : ContextSession) : List String := Session.reported c t.session

theorem isFaithful_closing : closing.IsFaithful where
  pending_clear _ := rfl
  pending_run c t := by
    cases c with
    | audit m =>
      have hnone : (t.session.audit m).1.spy.cleanups = [] := (Session.cleanups_audit t.session m).1
      exact congrArg (t.context.cleanups ++ ·) hnone
    | script how text nested =>
      simp only [closing, Context.foldl_cleanup]
      cases how <;> rfl
  halts_run c t := by
    cases c with
    | audit m => rfl
    | script how text nested => cases how <;> rfl

theorem errors_run (c : Cleanup) (t : ContextSession) :
    (closing.run c t).1.context.errors = t.context.errors ++ reported c t := by
  cases c with
  | audit m => exact congrArg (t.context.errors ++ ·) (Session.errors_audit t.session m)
  | script how text nested =>
    simp only [closing, Context.foldl_cleanup]
    cases how with
    | error => rfl
    | log => exact (List.append_nil _).symm
    | fatal => exact (List.append_nil _).symm
    | panic => exact (List.append_nil _).symm

theorem errors_close (t : ContextSession) :
    (closing.close t).1.context.errors =
      t.context.errors ++ (closing.runs t).flatMap fun x => reported x.1 x.2 :=
  Closing.close_reports (fun t : ContextSession => t.context.errors) reported (fun _ => rfl) errors_run t

/-- The end of a context ran `order`, and there is nothing left to be run: the context gives the errors back, or fails
    the test with them. -/
structure EndsAll (t : ContextSession) (order : List Cleanup) : Prop where
  order_eq : closing.order t = order
  finish : t.finish.2 = .ok (t.context.errors ++ (closing.runs t).flatMap fun x => reported x.1 x.2)
  drop : t.drop.2 = match t.context.errors ++ (closing.runs t).flatMap fun x => reported x.1 x.2 with
    | [] => .ok ()
    | errors => .error (.panic (.text ("\n\n".intercalate errors)))
  cleanups : t.finish.1.context.cleanups = [] ∧ t.drop.1.context.cleanups = []
  again : t.finish.1.drop = (t.finish.1, .ok ()) ∧ closing.order t.finish.1 = [] ∧ closing.order t.drop.1 = []

private theorem endsAll {t : ContextSession} (hcalm : ∀ c ∈ membersAll t.context.cleanups, c.halts = false) :
    Generations t.context.cleanups (closing.order t) [] ∧ t.EndsAll (closing.order t) := by
  obtain ⟨earlier, last, hclosed⟩ := isFaithful_closing.close t
  obtain ⟨hhalted, hleft, hgenerations, _⟩ := hclosed.of_calm hcalm
  have herrors := errors_close t
  rcases hclose : closing.close t with ⟨u, halt⟩
  rw [hclose] at hhalted hleft herrors
  obtain rfl : halt = none := by simpa using hhalted
  -- both ways to end the test leave the context as it is without the errors
  have hempty : closing.pending u.collect.1 = [] := hleft
  obtain ⟨hagain, hnothing⟩ := Closing.close_of_pending_eq_nil hempty
  have hfinish : t.finish = (u.collect.1, .ok u.context.errors) := by
    rw [finish, hclose]
    rfl
  have hdrop : t.drop.1 = u.collect.1 ∧ t.drop.2 = match u.context.errors with
      | [] => .ok ()
      | errors => .error (.panic (.text ("\n\n".intercalate errors))) := by
    rw [drop, hclose]
    dsimp only [collect]
    cases u.context.errors <;> exact ⟨rfl, rfl⟩
  refine ⟨hgenerations, rfl, ?_, ?_, ⟨?_, ?_⟩, ?_, ?_, ?_⟩
  · rw [hfinish, herrors]
  · rw [hdrop.2, herrors]
  · rw [hfinish]
    exact hempty
  · rw [hdrop.1]
    exact hempty
  · rw [hfinish, drop, hagain]
    rfl
  · rw [hfinish]
    exact hnothing
  · rw [hdrop.1]
    exact hnothing

end ContextSession

/-- Cleanups that do not halt the test are all run, each once: those registered so far, the last one first, then those
    that were registered meanwhile, and so on. A spy and a test context run them in the same order, have nothing left to
    be run in the end, and collect the errors that the cleanups report, the audits of their mocks among them. -/
theorem cleanups_run_by_generations (s : Session) (t : ContextSession) (past : Nat)
    (hcalm : ∀ c ∈ membersAll s.spy.cleanups, c.halts = false)
    (hpast : s.spy.registered = past + s.spy.cleanups.length) (hsame : t.context.cleanups = s.spy.cleanups) :
    ∃ order, Generations s.spy.cleanups order [] ∧ order.Perm (membersAll s.spy.cleanups) ∧
      s.ClosesAll past order ∧ t.EndsAll order := by
  obtain ⟨hgenerations, hperm, hcloses⟩ := Session.closesAll hcalm hpast
  obtain ⟨hcontext, hends⟩ := ContextSession.endsAll (t := t) (hsame ▸ hcalm)
  rw [hsame] at hcontext
  rw [hcontext.unique hgenerations] at hends
  exact ⟨_, hgenerations, hperm, hcloses, hends⟩

/-- Cleanups of a test behind the audit of its mock: one fails, one registers two others, and one of these a third
    one. -/
def nestedCleanups : List Cleanup :=
  [.script .log "list" [.script .error "first" [], .script .log "second" [.script .error "third" []]],
    .script .error "last" []]

/-- A session and a context with a mock each that has an expectation nobody satisfies. -/
def nestedSession : Session :=
  let s := (Session.start false).run [.onAny 0 "Open" "door.rs:1"]
  { s with spy := nestedCleanups.foldl Spy.cleanup s.spy }

def nestedContext : ContextSession :=
  let t : ContextSession := { context := { name := "nested" } }
  let t := (t.doing fun s => ((Session.run s [.newMock false, .onAny 0 "Open" "door.rs:1"]), ())).1
  { t with context := nestedCleanups.foldl Context.cleanup t.context }

theorem order_of_nestedCleanups :
    let s := nestedSession
    let t := nestedContext
    (∀ c ∈ membersAll s.spy.cleanups, c.halts = false) ∧ s.spy.registered = 0 + s.spy.cleanups.length ∧
      t.context.cleanups = s.spy.cleanups ∧ ∃ order, Generations s.spy.cleanups order [] ∧
        order.Perm (membersAll s.spy.cleanups) ∧ order.length = 6 ∧ s.close.1.spy.registered = 6 ∧
        Session.closing.order s = order ∧ ContextSession.closing.order t = order ∧
        s.close.1.spy.errors = ["last", (Session.auditFailure ((s.unsatisfied 0).map (·.2))).text, "first", "third"] ∧
        t.finish.2 = .ok ["last", (Session.auditFailure ((s.unsatisfied 0).map (·.2))).text, "first", "third"] := by
  intro s t
  have hcalm : ∀ c ∈ membersAll s.spy.cleanups, c.halts = false := by decide
  obtain ⟨order, hgenerations, hperm, hcloses, hends⟩ := cleanups_run_by_generations s t 0 hcalm rfl rfl
  have hlength : order.length = 6 := hperm.length_eq.trans rfl
  refine ⟨hcalm, rfl, rfl, order, hgenerations, hperm, hlength, ?_, hcloses.order_eq, hends.order_eq, rfl, rfl⟩
  rw [hcloses.registered, hlength]

/-- A cleanup that halts the test drops those of its generation that stand behind it: they were taken out to be run, and
    are neither run nor left to be run. Nothing else is lost. Closing again and again ends without a halt, and has run
    every cleanup once if and only if each generation is halted by the cleanup at most that was registered first. -/
theorem cleanups_behind_a_halt_are_dropped (s : Session) :
    (∃ earlier last,
      ClosedWith s.spy.cleanups (Session.closing.order s) s.close.1.spy.cleanups s.close.2.isSome earlier last ∧
      (s.spy.cleanups ++ nestedAll (Session.closing.order s)).Perm
        (Session.closing.order s ++ behindHalt last.reverse ++ s.close.1.spy.cleanups) ∧
      (behindHalt last.reverse = [] ↔ ∀ c ∈ last.tail, c.halts = false)) ∧
    let n := (membersAll s.spy.cleanups).countP halts
    (Session.closing.closeAgain n s).2 = none ∧ (Session.closing.closeAgain n s).1.spy.cleanups = [] ∧
      (∃ lost, ClosedAgain s.spy.cleanups (Session.closing.orderAgain n s) lost) ∧
      ((Session.closing.orderAgain n s).Perm (membersAll s.spy.cleanups) ↔ OnlyFirstHalts s.spy.cleanups) := by
  obtain ⟨earlier, last, hclosed⟩ := Session.isFaithful_closing.close s
  refine ⟨⟨earlier, last, hclosed, hclosed.registered, ClosedWith.dropped_eq_nil_iff⟩, ?_⟩
  intro n
  obtain ⟨hend, hempty, lost, hagain⟩ := Session.isFaithful_closing.closeAgain n s (Nat.le_refl _)
  exact ⟨hend, hempty, ⟨lost, hagain⟩, hagain.perm_iff⟩

/-- A test with an expectation that is not satisfied, and with a cleanup that halts the test. -/
def haltedDoor : Session :=
  let s := (Session.start false).run [.onAny 0 "Open" "door.rs:1"]
  { s with spy := s.spy.cleanup (.script .fatal "boom" []) }

/-- The audit of the mock is dropped: it is not made up for, and nobody hears of the expectation. -/
theorem audit_of_haltedDoor_is_dropped :
    haltedDoor.spy.cleanups = [.audit 0, .script .fatal "boom" []] ∧
      haltedDoor.close.2 = some (.fatal "boom") ∧ haltedDoor.close.1.close.2 = none ∧
      haltedDoor.close.1.close.1.spy.errors = [] ∧ haltedDoor.close.1.close.1.verdict? 0 = none ∧
      haltedDoor.close.1.close.1.unsatisfied 0 ≠ [] :=
  ⟨rfl, rfl, rfl, rfl, rfl, by simp [List.ne_nil_iff_length_pos]; decide⟩

end TraitMock
