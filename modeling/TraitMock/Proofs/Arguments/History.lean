import TraitMock.Proofs.Arguments.Comparison
import TraitMock.Proofs.Value.Judgement
import TraitMock.Samples.Functions

namespace TraitMock

namespace Value

variable {matchers : Nat → Criterion} {log : MatchLog} {want have_ : Value}

/-- A matcher among values is the one that its number stands for. -/
def IsOf (matchers : Nat → Criterion) (v : Value) : Prop := ∀ m, v = .matcher m → m.IsOf matchers

/-- A value that is no matcher shows no note. -/
theorem render_eq_of_not_matcher (h : ∀ m, have_ ≠ .matcher m) (log log' : MatchLog) :
    have_.render log = have_.render log' := by
  cases have_ with
  | matcher m => exact absurd rfl (h m)
  | _ => rfl

/-- An expected value that was compared with an actual one shows what came of it and nothing else. -/
theorem render_notedAdmits {log' : MatchLog} (hlog : log.Sound matchers) (hlog' : log'.Sound matchers)
    (hwant : want.IsOf matchers) (have_ : Value) :
    want.render (want.notedAdmits log have_) = want.render (want.notedAdmits log' have_) := by
  cases want with
  | matcher m =>
    have hm := hwant m rfl
    simp only [notedAdmits, Matcher.render_eq_shown, MatchLog.refusal?_noted hlog hm,
      MatchLog.refusal?_noted hlog' hm, if_true]
  | _ => rfl

end Value

namespace Arguments

variable {matchers : Nat → Criterion} {log log' : MatchLog} {expected actual : Arguments}

/-- The matchers that have something to judge are those at the positions that have an actual value. -/
theorem exists_judged_iff (m : Matcher) (expected actual : Arguments) :
    (∃ v, (m, v) ∈ judgements expected actual) ↔ .matcher m ∈ expected.take actual.length := by
  induction expected generalizing actual with
  | nil => simp [judgements]
  | cons want expected ih =>
    cases actual with
    | nil => simp [judgements_nil]
    | cons have_ actual =>
      rw [List.length_cons, List.take_succ_cons, List.mem_cons, ← ih]
      cases want <;> simp [judgements, exists_or]

theorem isOf_of_judged (hexpected : ∀ want ∈ expected, want.IsOf matchers) :
    ∀ j ∈ judgements expected actual, j.1.IsOf matchers := by
  intro j hj
  exact hexpected _ (List.mem_of_mem_take ((exists_judged_iff j.1 expected actual).mp ⟨j.2, hj⟩)) j.1 rfl

theorem sound_notedUpTo (hlog : log.Sound matchers) (hexpected : ∀ want ∈ expected, want.IsOf matchers) (n : Nat)
    (actual : Arguments) : (notedUpTo log n expected actual).Sound matchers :=
  hlog.judgedAll (isOf_of_judged fun want hwant => hexpected want (List.mem_of_mem_take hwant))

/-- A matcher that has something to judge shows how it judged that. -/
theorem want_of_judged {i : Nat} {m : Matcher} {v : Value} (hlog : log.Sound matchers)
    (hexpected : ∀ want ∈ expected, want.IsOf matchers) (hmatcher : expected[i]? = some (.matcher m))
    (hvalue : actual[i]? = some v) :
    ((diff log expected actual).1.lines[i]?).map (·.want) = some (m.shown (m.refusalOf? v)) := by
  obtain ⟨hi, -⟩ := List.getElem?_eq_some_iff.mp hvalue
  have hm := hexpected _ (List.mem_of_getElem? hmatcher) m rfl
  have hnoted := MatchLog.refusal?_noted (sound_notedUpTo hlog hexpected i actual) hm v m.id
  rw [getElem?_lines_diff, if_pos (by omega), notedUpTo_succ log hmatcher hvalue, hmatcher]
  simp only [lineOf, sideText, Option.map_some, Value.notedAdmits, Matcher.render_eq_shown, hnoted, if_true]

/-- The line of a position that has an actual value does not depend on what matchers noted before. -/
theorem line_of_actual {i : Nat} (hlog : log.Sound matchers) (hlog' : log'.Sound matchers)
    (hexpected : ∀ want ∈ expected, want.IsOf matchers) (hactual : ∀ have_ ∈ actual, ∀ m, have_ ≠ .matcher m)
    (hi : i < actual.length) :
    (diff log expected actual).1.lines[i]? = (diff log' expected actual).1.lines[i]? := by
  have hvalue := List.getElem?_eq_getElem hi
  have hactual := Value.render_eq_of_not_matcher (hactual _ (List.getElem_mem hi))
    (notedUpTo log (i + 1) expected actual) (notedUpTo log' (i + 1) expected actual)
  rw [getElem?_lines_diff, getElem?_lines_diff, if_pos (by omega), if_pos (by omega), hvalue]
  cases hwant : expected[i]? with
  | none => simp only [lineOf, sideText, hactual]
  | some want =>
    have hsame := Value.render_notedAdmits (sound_notedUpTo hlog hexpected i actual)
      (sound_notedUpTo hlog' hexpected i actual) (hexpected want (List.mem_of_getElem? hwant)) actual[i]
    rw [← notedUpTo_succ log hwant hvalue, ← notedUpTo_succ log' hwant hvalue] at hsame
    simp only [lineOf, sideText, hactual, hsame]

/-- An expected value without an actual one is shown as it is when the comparison is over. -/
theorem line_of_missing (log : MatchLog) {i : Nat} {want : Value} (hwant : expected[i]? = some want)
    (hmissing : actual.length ≤ i) :
    (diff log expected actual).1.lines[i]? =
      some ⟨i, false, want.render (log.judgedAll (judgements expected actual)), missing⟩ := by
  obtain ⟨hi, -⟩ := List.getElem?_eq_some_iff.mp hwant
  rw [getElem?_lines_diff, if_pos (by omega), notedUpTo_of_length_le log (by omega), hwant,
    List.getElem?_eq_none hmissing]
  rfl

/-- The note of a matcher after a comparison in which it had something to judge. -/
theorem refusal?_of_mem_take {m : Matcher} (hlog : log.Sound matchers)
    (hexpected : ∀ want ∈ expected, want.IsOf matchers) (hm : .matcher m ∈ expected.take actual.length) :
    (log.judgedAll (judgements expected actual)).refusal? m.id =
      MatchLog.lastRefusal? (judgements expected actual) m.id := by
  obtain ⟨v, hv⟩ := (exists_judged_iff m expected actual).mpr hm
  rw [MatchLog.refusal?_judgedAll hlog (isOf_of_judged hexpected), if_pos ⟨_, hv, rfl⟩]

/-- A comparison in which a matcher has nothing to judge leaves its note. -/
theorem refusal?_of_not_mem_take {m : Matcher} (hlog : log.Sound matchers)
    (hexpected : ∀ want ∈ expected, want.IsOf matchers) (hm : m.IsOf matchers)
    (hnot : .matcher m ∉ expected.take actual.length) :
    (log.judgedAll (judgements expected actual)).refusal? m.id = log.refusal? m.id := by
  rw [MatchLog.refusal?_judgedAll hlog (isOf_of_judged hexpected), if_neg]
  rintro ⟨j, hj, hid⟩
  -- another matcher with this number would be this one
  obtain rfl : j.1 = m := (isOf_of_judged hexpected j hj).eq_of_id_eq hm hid
  exact hnot ((exists_judged_iff j.1 expected actual).mp ⟨j.2, hj⟩)

private theorem want_eq_of_text_eq {i : Nat} {want want' : String}
    (h : DiffLine.text ⟨i, false, want, missing⟩ = DiffLine.text ⟨i, false, want', missing⟩) : want = want' := by
  have hchars := congrArg String.toList h
  simp only [DiffLine.text, Bool.false_eq_true, if_false, String.toList_append, List.append_assoc,
    List.append_cancel_left_eq, List.append_cancel_right_eq] at hchars
  exact String.toList_inj.mp hchars

/-- Two comparisons show the same if they show the same of every expected value that has no actual one. -/
theorem text_lines_diff_eq_iff (hlog : log.Sound matchers) (hlog' : log'.Sound matchers)
    (hexpected : ∀ want ∈ expected, want.IsOf matchers) (hactual : ∀ have_ ∈ actual, ∀ m, have_ ≠ .matcher m) :
    (diff log expected actual).1.lines.map DiffLine.text = (diff log' expected actual).1.lines.map DiffLine.text ↔
      ∀ want ∈ expected.drop actual.length, want.render (log.judgedAll (judgements expected actual)) =
        want.render (log'.judgedAll (judgements expected actual)) := by
  constructor
  · intro htexts want hwant
    obtain ⟨i, hi⟩ := List.mem_iff_getElem?.mp hwant
    rw [List.getElem?_drop] at hi
    have hline := congrArg (·[actual.length + i]?) htexts
    simp only [List.getElem?_map, line_of_missing _ hi (Nat.le_add_right _ _), Option.map_some,
      Option.some.injEq] at hline
    exact want_eq_of_text_eq hline
  · intro hrender
    congr 1
    -- line by line: those with an actual value agree anyway, the others by assumption
    refine List.ext_getElem? fun i => ?_
    by_cases hi : i < actual.length
    · exact line_of_actual hlog hlog' hexpected hactual hi
    · have hge := Nat.le_of_not_lt hi
      cases hwant : expected[i]? with
      | none =>
        have hle := List.getElem?_eq_none_iff.mp hwant
        rw [getElem?_lines_diff, getElem?_lines_diff, if_neg (by omega), if_neg (by omega)]
      | some want =>
        have hdrop : want ∈ expected.drop actual.length :=
          List.mem_iff_getElem?.mpr ⟨i - actual.length, by rw [List.getElem?_drop, Nat.add_sub_cancel' hge, hwant]⟩
        rw [line_of_missing log hwant hge, line_of_missing log' hwant hge, hrender want hdrop]

/-- After a comparison a matcher shows the same as if it had never been used before exactly if it had something to judge
    in it or had no note. -/
theorem render_matcher_eq_iff {m : Matcher} (hlog : log.Sound matchers)
    (hexpected : ∀ want ∈ expected, want.IsOf matchers) (hm : m.IsOf matchers) :
    (Value.matcher m).render (log.judgedAll (judgements expected actual)) =
        (Value.matcher m).render (({} : MatchLog).judgedAll (judgements expected actual)) ↔
      .matcher m ∈ expected.take actual.length ∨ log.refusal? m.id = none := by
  rw [Matcher.render_eq_shown, Matcher.render_eq_shown]
  by_cases htake : .matcher m ∈ expected.take actual.length
  · rw [refusal?_of_mem_take hlog hexpected htake, refusal?_of_mem_take MatchLog.sound_empty hexpected htake]
    simp [htake]
  · rw [refusal?_of_not_mem_take hlog hexpected hm htake,
      refusal?_of_not_mem_take MatchLog.sound_empty hexpected hm htake]
    constructor
    · exact fun hshown => .inr (Matcher.eq_none_of_shown_eq hshown)
    · intro hnote
      rw [hnote.resolve_left htake]

/-- A comparison shows the same as if its matchers had never been used before exactly if every matcher without an
    actual value either has one at another position or has no note. -/
theorem text_lines_diff_eq_new_iff (hlog : log.Sound matchers) (hexpected : ∀ want ∈ expected, want.IsOf matchers)
    (hactual : ∀ have_ ∈ actual, ∀ m, have_ ≠ .matcher m) :
    (diff log expected actual).1.lines.map DiffLine.text = (diff {} expected actual).1.lines.map DiffLine.text ↔
      ∀ m, .matcher m ∈ expected.drop actual.length →
        .matcher m ∈ expected.take actual.length ∨ log.refusal? m.id = none := by
  rw [text_lines_diff_eq_iff hlog MatchLog.sound_empty hexpected hactual]
  constructor
  · intro hrender m hm
    exact (render_matcher_eq_iff hlog hexpected (hexpected _ (List.mem_of_mem_drop hm) m rfl)).mp (hrender _ hm)
  · intro hnotes want hwant
    cases want with
    | matcher m =>
      exact (render_matcher_eq_iff hlog hexpected (hexpected _ (List.mem_of_mem_drop hwant) m rfl)).mpr
        (hnotes m hwant)
    | _ => rfl

end Arguments

/-- What a test can do with matchers: have one judge a value, or compare actual arguments with expected ones. -/
inductive Use where
  | judge (m : Matcher) (v : Value)
  | compare (expected actual : Arguments)

namespace Use

variable {matchers : Nat → Criterion}

/-- The matchers that may be asked for a judgement are those that their numbers stand for. -/
def IsOf (matchers : Nat → Criterion) : Use → Prop
  | .judge m _ => m.IsOf matchers
  | .compare expected _ => ∀ want ∈ expected, want.IsOf matchers

def judgements : Use → List Judgement
  | .judge m v => [(m, v)]
  | .compare expected actual => Arguments.judgements expected actual

/-- The log after one more use. -/
def noted (log : MatchLog) : Use → MatchLog
  | .judge m v => m.noted v log
  | .compare expected actual => (Arguments.diff log expected actual).2

/-- The notes that a history of uses leaves with matchers that were new before it. -/
def notes (history : List Use) : MatchLog := history.foldl noted {}

private theorem noted_eq (log : MatchLog) (u : Use) : u.noted log = log.judgedAll u.judgements := by
  cases u with
  | judge m v => rfl
  | compare expected actual => exact Arguments.log_diff log expected actual

theorem IsOf.judgements {u : Use} (h : u.IsOf matchers) : ∀ j ∈ u.judgements, j.1.IsOf matchers := by
  cases u with
  | judge m v => exact List.forall_mem_singleton.mpr h
  | compare expected actual => exact Arguments.isOf_of_judged h

/-- All that a history leaves is what its judgements leave. -/
theorem notes_eq (history : List Use) : notes history = ({} : MatchLog).judgedAll (history.flatMap judgements) := by
  unfold notes
  generalize ({} : MatchLog) = log
  induction history generalizing log with
  | nil => rfl
  | cons u history ih =>
    rw [List.foldl_cons, ih, noted_eq, List.flatMap_cons, MatchLog.judgedAll_append]

theorem isOf_of_judged {history : List Use} (h : ∀ u ∈ history, u.IsOf matchers) :
    ∀ j ∈ history.flatMap judgements, j.1.IsOf matchers := by
  intro j hj
  obtain ⟨u, hu, hj⟩ := List.mem_flatMap.mp hj
  exact (h u hu).judgements j hj

private theorem sound_notes {history : List Use} (h : ∀ u ∈ history, u.IsOf matchers) :
    (notes history).Sound matchers := by
  rw [notes_eq]
  exact MatchLog.sound_empty.judgedAll (isOf_of_judged h)

private theorem refusal?_notes {history : List Use} (h : ∀ u ∈ history, u.IsOf matchers) (id : Nat) :
    (notes history).refusal? id = MatchLog.lastRefusal? (history.flatMap judgements) id := by
  rw [notes_eq]
  exact MatchLog.refusal?_judgedAll_empty (isOf_of_judged h) id

end Use

namespace Arguments

/-- After any history of uses of its matchers a comparison with values that are no matchers finds what it would find
    with matchers that were never used, and shows the same of all positions that have an actual value: the refusal of a
    matcher there is its refusal of this value. A matcher without an actual value shows how its last judgement ended,
    so the comparison shows the same as with new matchers exactly if each of these also stands at a position that has
    an actual value, or the history left it without a refusal. -/
theorem diff_after_history {matchers : Nat → Criterion} {history : List Use} {expected actual : Arguments}
    (hhistory : ∀ u ∈ history, u.IsOf matchers) (hexpected : ∀ want ∈ expected, want.IsOf matchers)
    (hactual : ∀ have_ ∈ actual, ∀ m, have_ ≠ .matcher m) :
    (diff (Use.notes history) expected actual).1.failures = (diff {} expected actual).1.failures ∧
    (diff (Use.notes history) expected actual).1.lines.take actual.length =
      (diff {} expected actual).1.lines.take actual.length ∧
    (∀ (i : Nat) (m : Matcher) (v : Value), expected[i]? = some (.matcher m) → actual[i]? = some v →
      ((diff (Use.notes history) expected actual).1.lines[i]?).map (·.want) = some (m.shown (m.refusalOf? v))) ∧
    (∀ (i : Nat) (m : Matcher), expected[i]? = some (.matcher m) → actual.length ≤ i →
      ((diff (Use.notes history) expected actual).1.lines[i]?).map (·.want) =
        some (m.shown (MatchLog.lastRefusal?
          (history.flatMap Use.judgements ++ judgements expected actual) m.id))) ∧
    ((diff (Use.notes history) expected actual).1.lines.map DiffLine.text =
        (diff {} expected actual).1.lines.map DiffLine.text ↔
      ∀ m, .matcher m ∈ expected.drop actual.length →
        .matcher m ∈ expected.take actual.length ∨
          MatchLog.lastRefusal? (history.flatMap Use.judgements) m.id = none) := by
  have hnotes := Use.sound_notes hhistory
  refine ⟨?_, ?_, fun i m v hmatcher hvalue => want_of_judged hnotes hexpected hmatcher hvalue, ?_, ?_⟩
  · rw [failures_diff_eq, failures_diff_eq]
  · refine List.ext_getElem? fun i => ?_
    rw [List.getElem?_take, List.getElem?_take]
    split
    · rename_i hi
      exact line_of_actual hnotes MatchLog.sound_empty hexpected hactual hi
    · rfl
  · intro i m hmatcher hmissing
    have hjudged : ∀ j ∈ history.flatMap Use.judgements ++ judgements expected actual, j.1.IsOf matchers :=
      List.forall_mem_append.mpr ⟨Use.isOf_of_judged hhistory, isOf_of_judged hexpected⟩
    rw [← MatchLog.refusal?_judgedAll_empty hjudged, MatchLog.judgedAll_append, ← Use.notes_eq,
      ← Matcher.render_eq_shown]
    exact congrArg (Option.map (·.want)) (line_of_missing _ hmatcher hmissing)
  · simp only [← Use.refusal?_notes hhistory]
    exact text_lines_diff_eq_new_iff hnotes hexpected hactual

/-- A matcher that panics whatever it is to judge. -/
def unwilling (id : Nat) : Matcher := ⟨id, Samples.valueTest "panic" "always"⟩

/-- A list of three matchers, two of which are the same one, compared with one value after the third was used. -/
theorem diff_after_unwilling :
    (diff (Use.notes [.judge (unwilling 1) .nil])
      [.matcher (unwilling 0), .matcher (unwilling 0), .matcher (unwilling 1)] [.nil]).1.failures = 3 ∧
    (diff (Use.notes [.judge (unwilling 1) .nil])
      [.matcher (unwilling 0), .matcher (unwilling 0), .matcher (unwilling 1)] [.nil]).1.lines.map DiffLine.text ≠
    (diff {} [.matcher (unwilling 0), .matcher (unwilling 0), .matcher (unwilling 1)] [.nil]).1.lines.map
      DiffLine.text := by
  have hunwilling : ∀ id, (unwilling id).IsOf fun _ => (unwilling 0).criterion := fun _ => rfl
  have hvalue : ∀ id, (Value.matcher (unwilling id)).IsOf fun _ => (unwilling 0).criterion := by
    rintro id m ⟨rfl⟩
    exact hunwilling id
  obtain ⟨hfailures, -, -, -, htexts⟩ := @diff_after_history (fun _ => (unwilling 0).criterion)
    [.judge (unwilling 1) .nil] [.matcher (unwilling 0), .matcher (unwilling 0), .matcher (unwilling 1)] [.nil]
    (List.forall_mem_singleton.mpr (hunwilling 1)) (by simp [hvalue]) (by simp)
  refine ⟨hfailures.trans (by rw [failures_diff_eq]; decide), fun hsame => ?_⟩
  rcases htexts.mp hsame (unwilling 1) (by simp) with hused | hnote
  · simp [unwilling] at hused
  · exact absurd hnote (by simp [Use.judgements, MatchLog.lastRefusal?]; decide)

/-- A matcher that panicked before shows it where it has nothing to judge, also when it panicked at another position of
    the same comparison. -/
theorem unwilling_shows_old_refusal :
    (diff (Use.notes [.judge (unwilling 0) .nil]) [.matcher (unwilling 0)] []).1.lines.map DiffLine.text ≠
      (diff {} [.matcher (unwilling 0)] []).1.lines.map DiffLine.text ∧
    (diff {} [.matcher (unwilling 0), .matcher (unwilling 0)] [.nil]).1.lines.map DiffLine.text =
      ["0: FAIL: [mock.MatchBy=fn(Value) -> bool] \x7bpanic: \"always\"\x7d != (nil)",
        "1: FAIL: [mock.MatchBy=fn(Value) -> bool] \x7bpanic: \"always\"\x7d != (Missing)"] := by
  constructor
  · simp only [diff, diffLines]
    decide
  · simp only [diff, diffLines]
    decide

end Arguments

end TraitMock
