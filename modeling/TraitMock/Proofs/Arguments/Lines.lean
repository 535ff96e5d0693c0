import TraitMock.Arguments.Diff
import TraitMock.Proofs.Value.Judgement

namespace TraitMock.Arguments

/-- Whether one position agrees. A position that one side does not have never does. -/
def agreement : Option Value → Option Value → Bool
  | some want, some have_ => want.admits have_
  | _, _ => false

/-- What is shown of one side of a position. -/
def sideText (log : MatchLog) : Option Value → String
  | some v => v.render log
  | none => missing

/-- The line of a position by its two sides, with the notes that matchers have after it was compared. -/
def lineOf (log : MatchLog) (index : Nat) (want have_ : Option Value) : DiffLine :=
  ⟨index, agreement want have_, sideText log want, sideText log have_⟩

/-- The judgements that a comparison asks of matchers, in order. -/
def judgements : Arguments → Arguments → List Judgement
  | .matcher m :: expected, have_ :: actual => (m, have_) :: judgements expected actual
  | _ :: expected, _ :: actual => judgements expected actual
  | _, _ => []

/-- The log after the first `n` positions were compared. -/
def notedUpTo (log : MatchLog) (n : Nat) (expected actual : Arguments) : MatchLog :=
  log.judgedAll (judgements (expected.take n) (actual.take n))

theorem judgements_nil (expected : Arguments) : judgements expected [] = [] := by
  cases expected with
  | nil => rfl
  | cons want expected => cases want <;> rfl

theorem judgedAll_cons (log : MatchLog) (want have_ : Value) (expected actual : Arguments) :
    log.judgedAll (judgements (want :: expected) (have_ :: actual)) =
      (want.notedAdmits log have_).judgedAll (judgements expected actual) := by
  cases want <;> rfl

private theorem notedUpTo_zero (log : MatchLog) (expected actual : Arguments) : notedUpTo log 0 expected actual = log := rfl

theorem notedUpTo_of_one_side (log : MatchLog) (n : Nat) {expected actual : Arguments}
    (hside : expected = [] ∨ actual = []) : notedUpTo log n expected actual = log := by
  rcases hside with rfl | rfl
  · simp [notedUpTo, judgements, MatchLog.judgedAll]
  · simp [notedUpTo, judgements_nil, MatchLog.judgedAll]

theorem notedUpTo_cons (log : MatchLog) (n : Nat) (want have_ : Value) (expected actual : Arguments) :
    notedUpTo log (n + 1) (want :: expected) (have_ :: actual) =
      notedUpTo (want.notedAdmits log have_) n expected actual :=
  judgedAll_cons log want have_ _ _

/-- A position with two sides adds the judgement of the expected one, if that is a matcher. -/
theorem notedUpTo_succ (log : MatchLog) {i : Nat} {want have_ : Value} {expected actual : Arguments}
    (hwant : expected[i]? = some want) (hvalue : actual[i]? = some have_) :
    notedUpTo log (i + 1) expected actual = want.notedAdmits (notedUpTo log i expected actual) have_ := by
  induction i generalizing log expected actual with
  | zero =>
    cases expected with
    | nil => simp at hwant
    | cons first expected =>
      cases actual with
      | nil => simp at hvalue
      | cons first' actual =>
        obtain rfl : first = want := by simpa using hwant
        obtain rfl : first' = have_ := by simpa using hvalue
        exact notedUpTo_cons log 0 first first' expected actual
  | succ i ih =>
    cases expected with
    | nil => simp at hwant
    | cons first expected =>
      cases actual with
      | nil => simp at hvalue
      | cons first' actual =>
        rw [notedUpTo_cons, notedUpTo_cons, ih _ (by simpa using hwant) (by simpa using hvalue)]

/-- Behind the last actual value nothing is judged. -/
theorem notedUpTo_of_length_le (log : MatchLog) {n : Nat} {expected actual : Arguments} (hn : actual.length ≤ n) :
    notedUpTo log n expected actual = log.judgedAll (judgements expected actual) := by
  induction n generalizing log expected actual with
  | zero =>
    obtain rfl : actual = [] := List.length_eq_zero_iff.mp (Nat.le_zero.mp hn)
    rw [notedUpTo_zero, judgements_nil]
    rfl
  | succ n ih =>
    cases actual with
    | nil =>
      rw [notedUpTo_of_one_side log _ (.inr rfl), judgements_nil]
      rfl
    | cons have_ actual =>
      cases expected with
      | nil => rfl
      | cons want expected => rw [notedUpTo_cons, judgedAll_cons, ih _ (by simpa using hn)]

/-- The line of every position of the longer list, and no other. -/
theorem getElem?_diffLines (log : MatchLog) (index : Nat) (expected actual : Arguments) (i : Nat) :
    (diffLines log index expected actual).1[i]? =
      if i < max expected.length actual.length then
        some (lineOf (notedUpTo log (i + 1) expected actual) (index + i) expected[i]? actual[i]?)
      else none := by
  induction expected generalizing log index actual i with
  | nil =>
    rw [notedUpTo_of_one_side log _ (.inl rfl)]
    induction actual generalizing index i with
    | nil => simp [diffLines]
    | cons have_ actual ih =>
      cases i with
      | zero => simp [diffLines, lineOf, agreement, sideText]
      | succ i => simpa [diffLines, Nat.add_assoc, Nat.add_comm 1] using ih (index + 1) i
  | cons want expected ih =>
    cases actual with
    | nil =>
      rw [notedUpTo_of_one_side log _ (.inr rfl)]
      cases i with
      | zero => simp [diffLines, lineOf, agreement, sideText]
      | succ i =>
        have hrest := ih log (index + 1) [] i
        rw [notedUpTo_of_one_side log _ (.inr rfl)] at hrest
        simpa [diffLines, Nat.add_assoc, Nat.add_comm 1] using hrest
    | cons have_ actual =>
      rw [notedUpTo_cons]
      cases i with
      | zero => simp [diffLines, lineOf, agreement, sideText, notedUpTo, judgements, MatchLog.judgedAll]
      | succ i =>
        have hrest := ih (want.notedAdmits log have_) (index + 1) actual i
        simpa [diffLines, Nat.add_assoc, Nat.add_comm 1] using hrest

theorem getElem?_lines_diff (log : MatchLog) (expected actual : Arguments) (i : Nat) :
    (diff log expected actual).1.lines[i]? =
      if i < max expected.length actual.length then
        some (lineOf (notedUpTo log (i + 1) expected actual) i expected[i]? actual[i]?)
      else none := by
  have hlines := getElem?_diffLines log 0 expected actual i
  rwa [Nat.zero_add] at hlines

private theorem log_diffLines (log : MatchLog) (index : Nat) (expected actual : Arguments) :
    (diffLines log index expected actual).2 = log.judgedAll (judgements expected actual) := by
  induction expected generalizing log index actual with
  | nil =>
    induction actual generalizing index with
    | nil => simp [diffLines, judgements, MatchLog.judgedAll]
    | cons have_ actual ih => simpa [diffLines, judgements] using ih (index + 1)
  | cons want expected ih =>
    cases actual with
    | nil => simpa [diffLines, judgements_nil] using ih log (index + 1) []
    | cons have_ actual => simpa [diffLines, judgedAll_cons] using ih (want.notedAdmits log have_) (index + 1) actual

theorem log_diff (log : MatchLog) (expected actual : Arguments) :
    (diff log expected actual).2 = log.judgedAll (judgements expected actual) :=
  log_diffLines log 0 expected actual

end TraitMock.Arguments
