import TraitMock.Proofs.Arguments.Lines

namespace TraitMock

/-- Two logs have the same notes on all matchers outside a set. -/
def MatchLog.SameOutside (inside : Nat → Prop) (log log' : MatchLog) : Prop :=
  ∀ id, ¬inside id → log'.refusal? id = log.refusal? id

/-- If the value is a matcher, it is one of a set. -/
def Value.Inside (inside : Nat → Prop) (v : Value) : Prop := ∀ m, v = .matcher m → inside m.id

/-- The value is no matcher of a set. -/
def Value.Outside (inside : Nat → Prop) (v : Value) : Prop := ∀ m, v = .matcher m → ¬inside m.id

variable {inside : Nat → Prop} {log log' later : MatchLog}

namespace MatchLog.SameOutside

theorem refl (log : MatchLog) : SameOutside inside log log := fun _ _ => rfl

theorem symm (h : SameOutside inside log log') : SameOutside inside log' log := fun id hid => (h id hid).symm

theorem trans (h : SameOutside inside log log') (h' : SameOutside inside log' later) : SameOutside inside log later :=
  fun id hid => (h' id hid).trans (h id hid)

/-- If every matcher is inside, nothing is asked of the notes. -/
theorem of_forall (h : ∀ id, inside id) : SameOutside inside log log' := fun id hid => absurd (h id) hid

/-- A judgement notes the same in both logs, or nothing. -/
theorem noted (h : SameOutside inside log log') (m : Matcher) (v : Value) :
    SameOutside inside (m.noted v log) (m.noted v log') := by
  intro id hid
  unfold Matcher.noted
  split
  · cases m.criterion.judge v.observed <;> simp only [MatchLog.note, h id hid]
  · exact h id hid

theorem notedAdmits (h : SameOutside inside log log') (want have_ : Value) :
    SameOutside inside (want.notedAdmits log have_) (want.notedAdmits log' have_) := by
  cases want with
  | matcher m => exact h.noted m have_
  | _ => exact h

end MatchLog.SameOutside

open MatchLog (SameOutside)

/-- A judgement of a matcher inside leaves the notes outside. -/
theorem Matcher.sameOutside_noted {m : Matcher} (hm : inside m.id) (v : Value) (log : MatchLog) :
    SameOutside inside log (m.noted v log) := by
  intro id hid
  have hother : id ≠ m.id := fun hsame => hid (hsame ▸ hm)
  unfold Matcher.noted
  split
  · cases m.criterion.judge v.observed <;> simp only [MatchLog.note, if_neg hother]
  · rfl

private theorem Value.Inside.sameOutside_notedAdmits {want : Value} (h : want.Inside inside) (log : MatchLog) (have_ : Value) :
    SameOutside inside log (want.notedAdmits log have_) := by
  cases want with
  | matcher m => exact Matcher.sameOutside_noted (h m rfl) have_ log
  | _ => exact .refl log

/-- What is shown of a value outside does not depend on the notes inside. -/
theorem Value.Outside.render_eq {v : Value} (hv : v.Outside inside) (h : SameOutside inside log log') :
    v.render log' = v.render log := by
  cases v with
  | matcher m => rw [Matcher.render_eq_shown, Matcher.render_eq_shown, h m.id (hv m rfl)]
  | _ => rfl

namespace Arguments

/-- All matchers among the arguments are of a set. -/
def Inside (inside : Nat → Prop) (args : Arguments) : Prop := ∀ v ∈ args, v.Inside inside

/-- No matcher among the arguments is of a set. -/
def Outside (inside : Nat → Prop) (args : Arguments) : Prop := ∀ v ∈ args, v.Outside inside

variable {expected actual args : Arguments}

private theorem sameOutside_judgedAll (h : SameOutside inside log log') (js : List Judgement) :
    SameOutside inside (log.judgedAll js) (log'.judgedAll js) := by
  induction js generalizing log log' with
  | nil => exact h
  | cons j js ih => exact ih (h.noted j.1 j.2)

/-- A comparison notes the same on the matchers outside, whatever the notes inside are. -/
theorem sameOutside_diff (h : SameOutside inside log log') (expected actual : Arguments) :
    SameOutside inside (diff log expected actual).2 (diff log' expected actual).2 := by
  rw [log_diff, log_diff]
  exact sameOutside_judgedAll h _

/-- A comparison with matchers inside leaves the notes outside. -/
theorem Inside.sameOutside_diff (h : Inside inside expected) (log : MatchLog) (actual : Arguments) :
    SameOutside inside log (diff log expected actual).2 := by
  rw [log_diff]
  induction expected generalizing log actual with
  | nil => exact .refl log
  | cons want expected ih =>
    obtain ⟨hwant, hexpected⟩ := List.forall_mem_cons.mp h
    cases actual with
    | nil =>
      rw [judgements_nil]
      exact .refl log
    | cons have_ actual =>
      rw [judgedAll_cons]
      exact (hwant.sameOutside_notedAdmits log have_).trans (ih hexpected _ actual)

theorem Outside.render_eq (hargs : Outside inside args) (h : SameOutside inside log log') :
    args.render log' = args.render log :=
  List.map_congr_left fun v hv => (hargs v hv).render_eq h

/-- The lines of a comparison outside do not depend on the notes inside. -/
theorem Outside.diffLines_eq (hexpected : Outside inside expected) (hactual : Outside inside actual)
    (h : SameOutside inside log log') (index : Nat) :
    (diffLines log' index expected actual).1 = (diffLines log index expected actual).1 := by
  induction expected generalizing log log' index actual with
  | nil =>
    induction actual generalizing index with
    | nil => simp only [diffLines]
    | cons have_ actual ih =>
      obtain ⟨hfirst, hrest⟩ := List.forall_mem_cons.mp hactual
      simp only [diffLines, hfirst.render_eq h, ih hrest]
  | cons want expected ih =>
    obtain ⟨hwant, hwants⟩ := List.forall_mem_cons.mp hexpected
    cases actual with
    | nil => simp only [diffLines, hwant.render_eq h, ih hwants hactual h]
    | cons have_ actual =>
      obtain ⟨hfirst, hrest⟩ := List.forall_mem_cons.mp hactual
      have hnoted := h.notedAdmits want have_
      simp only [diffLines, hwant.render_eq hnoted, hfirst.render_eq hnoted, ih hwants hrest hnoted]

theorem Outside.diff_eq (hexpected : Outside inside expected) (hactual : Outside inside actual)
    (h : SameOutside inside log log') : (diff log' expected actual).1 = (diff log expected actual).1 :=
  congrArg Diff.mk (hexpected.diffLines_eq hactual h 0)

end Arguments
end TraitMock
