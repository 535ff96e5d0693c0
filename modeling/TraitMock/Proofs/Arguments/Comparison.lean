import Mathlib.Data.List.Forall2
import TraitMock.Arguments.Access
import TraitMock.Proofs.Arguments.Lines

namespace TraitMock

namespace Value

/-- An actual value is one that was expected: the wildcard stands for every value, a matcher for those that it
    accepts, and any other value for those that equal it. -/
def StandsFor (want have_ : Value) : Prop :=
  want = .wildcard ∨ (∃ m, want = .matcher m ∧ m.accepts have_ = true) ∨
    ((∀ m, want ≠ .matcher m) ∧ want.deepEqual have_ = true)

/-- The value stands for itself and those that equal it alone. -/
def IsPlain (v : Value) : Prop := v ≠ .wildcard ∧ ∀ m, v ≠ .matcher m

theorem admits_iff (want have_ : Value) : want.admits have_ = true ↔ want.StandsFor have_ := by
  cases want <;> simp [admits, StandsFor]

private theorem IsPlain.admits_eq {want : Value} (h : want.IsPlain) (have_ : Value) :
    want.admits have_ = want.deepEqual have_ := by
  obtain ⟨hwildcard, hmatcher⟩ := h
  cases want with
  | wildcard => exact absurd rfl hwildcard
  | matcher m => exact absurd rfl (hmatcher m)
  | _ => rfl

end Value

namespace Arguments

/-- Position by position, whether the two sides agree. -/
def agreements (expected actual : Arguments) : List Bool := expected.zipWithAll agreement actual

/-- What a comparison finds does not depend on what matchers noted before. -/
theorem agrees_diff_eq (log : MatchLog) (expected actual : Arguments) :
    (diff log expected actual).1.lines.map (·.agrees) = agreements expected actual := by
  refine List.ext_getElem? fun i => ?_
  rw [List.getElem?_map, getElem?_lines_diff, agreements, List.getElem?_zipWithAll]
  by_cases hi : i < max expected.length actual.length
  · rw [if_pos hi]
    cases hwant : expected[i]? with
    | some want => cases actual[i]? <;> rfl
    | none =>
      cases hvalue : actual[i]? with
      | some have_ => rfl
      | none =>
        rw [List.getElem?_eq_none_iff] at hwant hvalue
        omega
  · rw [if_neg hi, List.getElem?_eq_none (by omega), List.getElem?_eq_none (by omega)]
    rfl

private theorem length_agreements (expected actual : Arguments) :
    (agreements expected actual).length = max expected.length actual.length := by
  unfold agreements
  induction expected generalizing actual with
  | nil => cases actual <;> simp
  | cons want expected ih =>
    cases actual with
    | nil => simp
    | cons have_ actual => simp [ih, Nat.add_max_add_right]

private theorem length_lines_diff (log : MatchLog) (expected actual : Arguments) :
    (diff log expected actual).1.lines.length = max expected.length actual.length := by
  rw [← length_agreements, ← agrees_diff_eq log, List.length_map]

private theorem failures_eq_countP_agrees (d : Diff) : d.failures = (d.lines.map (·.agrees)).countP (! ·) := by
  rw [List.countP_map]
  rfl

theorem failures_diff_eq (log : MatchLog) (expected actual : Arguments) :
    (diff log expected actual).1.failures = (agreements expected actual).countP (! ·) := by
  rw [failures_eq_countP_agrees, agrees_diff_eq]

/-- All positions agree exactly when there are as many on both sides and each has what stands for the other. -/
theorem forall_agreements_iff (expected actual : Arguments) :
    (∀ b ∈ agreements expected actual, b = true) ↔ List.Forall₂ Value.StandsFor expected actual := by
  unfold agreements
  induction expected generalizing actual with
  | nil => cases actual <;> simp [agreement]
  | cons want expected ih =>
    cases actual with
    | nil => simp [agreement]
    | cons have_ actual =>
      rw [List.zipWithAll_cons_cons, List.forall_mem_cons, ih, List.forall₂_cons, agreement, Value.admits_iff]

theorem isMatch_diff_iff (log : MatchLog) (expected actual : Arguments) :
    (diff log expected actual).1.isMatch = true ↔ List.Forall₂ Value.StandsFor expected actual := by
  rw [Diff.isMatch, beq_iff_eq, failures_diff_eq, List.countP_eq_zero, ← forall_agreements_iff]
  simp

private theorem isMatch_diff_of_length_ne (log : MatchLog) {expected actual : Arguments}
    (hlength : expected.length ≠ actual.length) : (diff log expected actual).1.isMatch = false :=
  Bool.eq_false_iff.mpr fun h => hlength ((isMatch_diff_iff log expected actual).mp h).length_eq

/-- Whether a line, as it is shown, is marked as a failure behind its number. -/
def marksFailure (line : String) : Bool := ": FAIL: ".toList.isPrefixOf (line.toList.dropWhile Char.isDigit)

theorem dropWhile_isDigit_append (n : Nat) {rest : List Char} (hrest : rest.head?.any Char.isDigit = false) :
    ((toString n).toList ++ rest).dropWhile Char.isDigit = rest := by
  have hdigits : ∀ c ∈ (toString n).toList, c.isDigit = true := fun c hc =>
    Nat.isDigit_of_mem_toDigits (by decide) (by decide) (Nat.toList_repr ▸ hc)
  rw [List.dropWhile_append_of_pos hdigits]
  cases rest with
  | nil => rfl
  | cons c rest => exact List.dropWhile_cons_of_neg (by simpa using hrest)

private theorem marksFailure_text (l : DiffLine) : marksFailure l.text = !l.agrees := by
  unfold marksFailure DiffLine.text
  cases l.agrees with
  | false =>
    simp only [Bool.false_eq_true, if_false, String.append_assoc]
    rw [String.toList_append, dropWhile_isDigit_append _ (by simp)]
    simp
  | true =>
    simp only [if_true, String.append_assoc]
    rw [String.toList_append, dropWhile_isDigit_append _ (by simp)]
    simp [List.isPrefixOf]

private theorem failures_eq_countP_marked (d : Diff) : d.failures = (d.lines.map DiffLine.text).countP marksFailure := by
  rw [List.countP_map]
  exact List.countP_congr fun l _ => by simp [marksFailure_text]

private theorem equal_eq_ok {left right : Arguments} (hlength : left.length = right.length) :
    equal left right = .ok ((left.zip right).all fun p => p.1.deepEqual p.2) := by
  simp [equal, hlength]

private theorem equal_eq_error_iff {left right : Arguments} {e : ArgumentError} :
    equal left right = .error e ↔ left.length ≠ right.length ∧ e = .lengthsDiffer left.length right.length := by
  by_cases hlength : left.length = right.length
  · simp [equal, hlength]
  · simp [equal, hlength, eq_comm]

/-- Where nothing but plain values is expected, a position agrees exactly when its sides are equal. -/
theorem forall₂_standsFor_iff {expected actual : Arguments} (hplain : ∀ want ∈ expected, want.IsPlain) :
    List.Forall₂ Value.StandsFor expected actual ↔
      List.Forall₂ (fun want have_ => want.deepEqual have_ = true) expected actual := by
  induction expected generalizing actual with
  | nil => simp
  | cons want expected ih =>
    obtain ⟨hfirst, hrest⟩ := List.forall_mem_cons.mp hplain
    cases actual with
    | nil => simp
    | cons have_ actual =>
      rw [List.forall₂_cons, List.forall₂_cons, ih hrest, ← Value.admits_iff, hfirst.admits_eq]

private theorem equal_eq_ok_isMatch (log : MatchLog) {expected actual : Arguments}
    (hplain : ∀ want ∈ expected, want.IsPlain) (hlength : expected.length = actual.length) :
    equal expected actual = .ok (diff log expected actual).1.isMatch := by
  rw [equal_eq_ok hlength]
  congr 1
  rw [Bool.eq_iff_iff, isMatch_diff_iff, forall₂_standsFor_iff hplain, List.forall₂_iff_zip]
  simp only [List.all_eq_true, Prod.forall, hlength, true_and]

/-- A comparison shows every position of the longer list, counts the positions that it marks as failures, and finds a
    match exactly if the lists have one length and every value that is expected stands for the actual one. Of
    plain values it says what the equality of lists says, which refuses lists of different lengths and no others. -/
theorem diff_agrees_with_equal (log : MatchLog) (expected actual : Arguments) :
    (diff log expected actual).1.lines.length = max expected.length actual.length ∧
    (diff log expected actual).1.failures =
      ((diff log expected actual).1.lines.map DiffLine.text).countP marksFailure ∧
    ((diff log expected actual).1.isMatch = true ↔
      expected.length = actual.length ∧ ∀ p ∈ expected.zip actual, p.1.StandsFor p.2) ∧
    ((∀ want ∈ expected, want.IsPlain) → expected.length = actual.length →
      equal expected actual = .ok (diff log expected actual).1.isMatch) ∧
    ((∃ e, equal expected actual = .error e) ↔ expected.length ≠ actual.length) ∧
    (expected.length ≠ actual.length → (diff log expected actual).1.isMatch = false) := by
  refine ⟨length_lines_diff log expected actual, failures_eq_countP_marked _, ?_, equal_eq_ok_isMatch log, ?_,
    isMatch_diff_of_length_ne log⟩
  · rw [isMatch_diff_iff, List.forall₂_iff_zip]
    simp only [Prod.forall]
  · simp [equal_eq_error_iff]

/-- Two lists of one length, of which one position differs, compared in both ways. -/
theorem diff_of_two_texts :
    (∀ want ∈ [Value.nil, .text "key"], want.IsPlain) ∧
    equal [.nil, .text "key"] [.nil, .text "kez"] =
      .ok (diff {} [.nil, .text "key"] [.nil, .text "kez"]).1.isMatch ∧
    (diff {} [.nil, .text "key"] [.nil, .text "kez"]).1.failures = 1 := by
  have hplain : ∀ want ∈ [Value.nil, .text "key"], want.IsPlain := by simp [Value.IsPlain, Value.text]
  obtain ⟨-, -, -, hequal, -⟩ := diff_agrees_with_equal {} [.nil, .text "key"] [.nil, .text "kez"]
  exact ⟨hplain, hequal hplain rfl, by rw [failures_diff_eq]; decide⟩

/-- Accepts numbers and nothing else. -/
def numberMatcher : Matcher := ⟨0, .typeNamed "i32"⟩

/-- A matcher equals itself, but it stands for what it accepts: one that accepts numbers does not accept a matcher. -/
theorem numberMatcher_refuses_itself :
    ¬((diff {} [.matcher numberMatcher] [.matcher numberMatcher]).1.isMatch = true ↔
      [Value.matcher numberMatcher].length = [Value.matcher numberMatcher].length ∧
        ∀ p ∈ [Value.matcher numberMatcher].zip [Value.matcher numberMatcher],
          p.1 = .wildcard ∨ (∃ m, p.1 = .matcher m ∧ m.accepts p.2 = true) ∨ p.1.deepEqual p.2 = true) := by
  have hmatch : (diff {} [.matcher numberMatcher] [.matcher numberMatcher]).1.isMatch = false := by
    rw [Diff.isMatch, failures_diff_eq]
    rfl
  have hequal : (Value.matcher numberMatcher).deepEqual (.matcher numberMatcher) = true := rfl
  simp [hmatch, hequal]

end Arguments
end TraitMock
