import Mathlib.Data.List.Induction
import TraitMock.Value.Basic

namespace TraitMock

/-- A matcher with a value that it judges. -/
abbrev Judgement := Matcher × Value

namespace Matcher

variable {m : Matcher} {matchers : Nat → Criterion}

/-- Why the matcher gives no verdict on a value, if it gives none. -/
def refusalOf? (m : Matcher) (v : Value) : Option Refusal :=
  match m.criterion.judge v.observed with
  | .ok _ => none
  | .error r => some r

/-- The matcher is the one that its number stands for. -/
def IsOf (matchers : Nat → Criterion) (m : Matcher) : Prop := m.criterion = matchers m.id

theorem IsOf.eq_of_id_eq {m' : Matcher} (h : m.IsOf matchers) (h' : m'.IsOf matchers) (hid : m.id = m'.id) :
    m = m' := by
  obtain ⟨id, criterion⟩ := m
  obtain ⟨id', criterion'⟩ := m'
  obtain rfl : id = id' := hid
  obtain rfl : criterion = criterion' := h.trans h'.symm
  rfl

/-- Only a predicate refuses to judge. -/
theorem refusalOf?_of_not_isPredicate (h : m.criterion.isPredicate = false) (v : Value) : m.refusalOf? v = none := by
  unfold refusalOf?
  cases hcriterion : m.criterion with
  | typeNamed name => cases v.observed <;> rfl
  | typeIs name => cases v.observed <;> rfl
  | predicate description test => simp [hcriterion, Criterion.isPredicate] at h

/-- The text of the matcher when its note is the given one. -/
def shown (m : Matcher) (r : Option Refusal) : String := (Value.matcher m).render (({} : MatchLog).note m.id r)

theorem render_eq_shown (m : Matcher) (log : MatchLog) :
    (Value.matcher m).render log = m.shown (log.refusal? m.id) := by
  simp [shown, Value.render, MatchLog.note]

/-- A refusal shows. -/
theorem eq_none_of_shown_eq {r : Option Refusal} (h : m.shown r = m.shown none) : r = none := by
  cases r with
  | none => rfl
  | some r =>
    have hlength := congrArg String.length h
    have hclosing : "\x7d".length = 1 := rfl
    cases r <;> simp [shown, Value.render, MatchLog.note, String.length_append] at hlength <;> omega

end Matcher

namespace MatchLog

variable {matchers : Nat → Criterion} {log : MatchLog} {m : Matcher}

/-- Only predicates have a note. -/
def Sound (matchers : Nat → Criterion) (log : MatchLog) : Prop :=
  ∀ id, (matchers id).isPredicate = false → log.refusal? id = none

theorem sound_empty : Sound matchers {} := fun _ _ => rfl

/-- The note of a matcher is that of its last judgement, also if it is no predicate and keeps none. -/
theorem refusal?_noted (hlog : log.Sound matchers) (hm : m.IsOf matchers) (v : Value) (id : Nat) :
    (m.noted v log).refusal? id = if id = m.id then m.refusalOf? v else log.refusal? id := by
  cases hpredicate : m.criterion.isPredicate with
  | true =>
    unfold Matcher.noted Matcher.refusalOf?
    rw [if_pos hpredicate]
    cases m.criterion.judge v.observed <;> rfl
  | false =>
    have hsame : m.noted v log = log := by simp [Matcher.noted, hpredicate]
    rw [hsame, Matcher.refusalOf?_of_not_isPredicate hpredicate]
    by_cases hid : id = m.id
    · rw [if_pos hid, hid]
      exact hlog m.id (hm ▸ hpredicate)
    · rw [if_neg hid]

theorem Sound.noted (hlog : log.Sound matchers) (hm : m.IsOf matchers) (v : Value) :
    (m.noted v log).Sound matchers := by
  intro id hid
  rw [refusal?_noted hlog hm]
  split
  · rename_i heq
    subst heq
    exact Matcher.refusalOf?_of_not_isPredicate ((congrArg _ hm).trans hid) v
  · exact hlog id hid

/-- The log after several judgements. -/
def judgedAll (log : MatchLog) (judgements : List Judgement) : MatchLog :=
  judgements.foldl (fun log j => j.1.noted j.2 log) log

theorem judgedAll_append (log : MatchLog) (js later : List Judgement) :
    log.judgedAll (js ++ later) = (log.judgedAll js).judgedAll later :=
  List.foldl_append

theorem Sound.judgedAll (hlog : log.Sound matchers) {js : List Judgement} (hjs : ∀ j ∈ js, j.1.IsOf matchers) :
    (log.judgedAll js).Sound matchers := by
  induction js generalizing log with
  | nil => exact hlog
  | cons j js ih =>
    obtain ⟨hfirst, hrest⟩ := List.forall_mem_cons.mp hjs
    exact ih (hlog.noted hfirst j.2) hrest

/-- The refusal in which the last judgement of a matcher ended, if there was one and it ended so. -/
def lastRefusal? (judgements : List Judgement) (id : Nat) : Option Refusal :=
  (judgements.reverse.find? fun j => j.1.id == id).bind fun j => j.1.refusalOf? j.2

theorem refusal?_judgedAll (hlog : log.Sound matchers) {js : List Judgement} (hjs : ∀ j ∈ js, j.1.IsOf matchers)
    (id : Nat) :
    (log.judgedAll js).refusal? id =
      if ∃ j ∈ js, j.1.id = id then lastRefusal? js id else log.refusal? id := by
  -- from the end, as the last judgement of a matcher decides and earlier ones are overwritten
  induction js using List.reverseRecOn with
  | nil => simp [judgedAll]
  | append_singleton js j ih =>
    obtain ⟨hfront, hlast⟩ := List.forall_mem_append.mp hjs
    have hj := hlast j List.mem_cons_self
    have hnoted := refusal?_noted (hlog.judgedAll hfront) hj j.2 id
    rw [judgedAll_append, judgedAll, List.foldl_cons, List.foldl_nil, hnoted]
    by_cases hid : id = j.1.id
    · subst hid
      rw [if_pos rfl, if_pos ⟨j, by simp, rfl⟩]
      simp [lastRefusal?]
    · have hlater : (∃ i ∈ js ++ [j], i.1.id = id) ↔ ∃ i ∈ js, i.1.id = id := by
        simp only [List.mem_append, List.mem_singleton, or_and_right, exists_or, exists_eq_left, Ne.symm hid, or_false]
      have hlastRefusal : lastRefusal? (js ++ [j]) id = lastRefusal? js id := by simp [lastRefusal?, Ne.symm hid]
      rw [if_neg hid, ih hfront, hlastRefusal]
      exact (if_congr hlater rfl rfl).symm

/-- Matchers that were new before have the notes of their last judgements. -/
theorem refusal?_judgedAll_empty {js : List Judgement} (hjs : ∀ j ∈ js, j.1.IsOf matchers) (id : Nat) :
    (({} : MatchLog).judgedAll js).refusal? id = lastRefusal? js id := by
  rw [refusal?_judgedAll sound_empty hjs]
  split
  · rfl
  · rename_i hnone
    have hfind : (js.reverse.find? fun j => j.1.id == id) = none := by simpa using hnone
    simp [lastRefusal?, hfind]

end MatchLog

end TraitMock
