import Mathlib.Data.List.Forall2
import TraitMock.Proofs.Mock.Verdict
import TraitMock.Proofs.Text.LineFeeds

namespace TraitMock

namespace Notice

private theorem le_foldl_max (ns : List Nat) (start : Nat) : start ≤ ns.foldl max start ∧ ∀ n ∈ ns, n ≤ ns.foldl max start := by
  induction ns generalizing start with
  | nil => simp
  | cons n ns ih =>
    obtain ⟨hstart, hrest⟩ := ih (max start n)
    rw [List.foldl_cons]
    refine ⟨Nat.le_trans (Nat.le_max_left start n) hstart, List.forall_mem_cons.mpr ⟨?_, hrest⟩⟩
    exact Nat.le_trans (Nat.le_max_right start n) hstart

theorem length_le_widest {texts : List String} {s : String} (h : s ∈ texts) : s.length ≤ widest texts :=
  Nat.le_trans (Text.length_le_utf8ByteSize s) ((le_foldl_max _ 0).2 _ (List.mem_map_of_mem h))

@[simp] theorem toList_padding (width : Nat) (s : String) :
    (padding width s).toList = List.replicate (width - s.length) ' ' := by
  rw [padding, String.toList_ofList]

private theorem length_toList_padLeft {width : Nat} {s : String} (h : s.length ≤ width) :
    (padLeft width s).toList.length = width := by
  rw [padLeft, String.toList_append, toList_padding, List.length_append, List.length_replicate, String.length_toList]
  omega

private theorem length_toList_padRight {width : Nat} {s : String} (h : s.length ≤ width) :
    (padRight width s).toList.length = width := by
  rw [padRight, String.toList_append, toList_padding, List.length_append, List.length_replicate, String.length_toList]
  omega

/-- The lines of a notice as it is displayed. -/
def displayed (n : Notice) : List (List Char) := Text.splitLineFeeds n.text.toList

/-- The column of the values: behind the keys, a colon and a blank. -/
def valueColumn (n : Notice) : Nat := n.keyWidth + 2

/-- The lines that a row shows of its value; a value without lines shows an empty one. -/
def valueLines (value : String) : List String := if Text.lines value = [] then [""] else Text.lines value

/-- How the lines of a row look: from the column on they show the value, one line after the other. In front of it
    stands the key on the first line, and nothing on the others. -/
structure ShowsRow (column : Nat) (key value : String) (shown : List (List Char)) : Prop where
  reaches : ∀ line ∈ shown, column ≤ line.length
  values : shown.map (·.drop column) = (valueLines value).map String.toList
  fronts : ∃ gap, shown.map (·.take column) =
    (List.replicate gap ' ' ++ key.toList ++ [':', ' ']) ::
      List.replicate ((valueLines value).length - 1) (List.replicate column ' ')

/-- The lines of a row are the lines that it shows of its value, each behind a text of its own. -/
theorem rowLines_eq (width : Nat) (key value : String) :
    ∃ first more, valueLines value = first :: more ∧
      rowLines width key value =
        (padLeft width key ++ ": " ++ first) :: more.map fun line => padLeft width "" ++ "  " ++ line := by
  rw [valueLines, rowLines]
  cases Text.lines value with
  | nil => exact ⟨"", [], rfl, rfl⟩
  | cons first more => exact ⟨first, more, rfl, rfl⟩

private theorem not_mem_valueLines {value line : String} (h : line ∈ valueLines value) : '\n' ∉ line.toList := by
  rw [valueLines] at h
  split at h
  · rw [List.mem_singleton.mp h]
    exact List.not_mem_nil
  · exact Text.not_mem_of_mem_lines h

/-- What stands on the first line of a row in front of the value. -/
def keyFront (width : Nat) (key : String) : List Char := (padLeft width key).toList ++ [':', ' ']

private theorem length_keyFront {width : Nat} {key : String} (hkey : key.length ≤ width) :
    (keyFront width key).length = width + 2 := by
  rw [keyFront, List.length_append, length_toList_padLeft hkey, List.length_cons, List.length_singleton]

private theorem toList_firstLine (width : Nat) (key line : String) :
    (padLeft width key ++ ": " ++ line).toList = keyFront width key ++ line.toList := by
  simp [keyFront]

private theorem toList_furtherLine (width : Nat) (line : String) :
    (padLeft width "" ++ "  " ++ line).toList = List.replicate (width + 2) ' ' ++ line.toList := by
  simp [padLeft, List.replicate_add]

private theorem map_toList_rowLines (width : Nat) (key value : String) :
    ∃ first more, valueLines value = first :: more ∧
      (rowLines width key value).map String.toList =
        (keyFront width key ++ first.toList) :: more.map fun line => List.replicate (width + 2) ' ' ++ line.toList := by
  obtain ⟨first, more, hvalues, hlines⟩ := rowLines_eq width key value
  refine ⟨first, more, hvalues, ?_⟩
  rw [hlines, List.map_cons, toList_firstLine, List.map_map]
  exact congrArg (List.cons _) (List.map_congr_left fun line _ => toList_furtherLine width line)

/-- What stands in front of the column fills it exactly, so that cutting there gives the two parts. -/
theorem showsRow_rowLines {width : Nat} {key : String} (hkey : key.length ≤ width) (value : String) :
    ShowsRow (width + 2) key value ((rowLines width key value).map String.toList) := by
  obtain ⟨first, more, hvalues, hshown⟩ := map_toList_rowLines width key value
  have hfront := length_keyFront hkey
  have hblanks : (List.replicate (width + 2) ' ').length = width + 2 := List.length_replicate
  rw [hshown]
  refine ⟨List.forall_mem_cons.mpr ⟨?_, fun line hline => ?_⟩, ?_, width - key.length, ?_⟩
  · rw [List.length_append, hfront]
    exact Nat.le_add_right _ _
  · obtain ⟨text, -, rfl⟩ := List.mem_map.mp hline
    rw [List.length_append, hblanks]
    exact Nat.le_add_right _ _
  · rw [hvalues, List.map_cons, List.map_cons, List.drop_left' hfront, List.map_map]
    refine congrArg (List.cons _) (List.map_congr_left fun line _ => ?_)
    rw [Function.comp_apply, List.drop_left' hblanks]
  · rw [hvalues, List.map_cons, List.take_left' hfront, List.map_map, keyFront, padLeft, String.toList_append,
      toList_padding, List.length_cons, Nat.add_sub_cancel]
    refine congrArg (List.cons _) (List.map_eq_replicate_iff.mpr fun line _ => ?_)
    rw [Function.comp_apply, List.take_left' hblanks]

private theorem not_mem_rowLines {width : Nat} {key value line : String} (hkey : '\n' ∉ key.toList)
    (hline : line ∈ rowLines width key value) : '\n' ∉ line.toList := by
  obtain ⟨first, more, hvalues, hlines⟩ := rowLines_eq width key value
  have hvalue : ∀ text ∈ first :: more, '\n' ∉ text.toList := fun text htext =>
    not_mem_valueLines (hvalues ▸ htext)
  rw [hlines, List.mem_cons, List.mem_map] at hline
  rcases hline with rfl | ⟨text, htext, rfl⟩
  · have hfirst := hvalue first List.mem_cons_self
    simp [padLeft, hkey, hfirst]
  · have hmore := hvalue text (List.mem_cons_of_mem _ htext)
    simp [padLeft, hmore]

/-- A notice is displayed as its header, the lines of its rows and its free lines, one after the other. -/
theorem displayed_eq {n : Notice} (h : ∀ r ∈ n.rows, '\n' ∉ r.1.toList) :
    n.displayed = Text.splitLineFeeds (n.header ++ ":").toList ++
      (n.rows.map fun r => (rowLines n.keyWidth r.1 r.2).map String.toList).flatten ++
      n.lines.flatMap fun l => Text.splitLineFeeds ("  " ++ l).toList := by
  have hrows : (n.rows.flatMap fun r => rowLines n.keyWidth r.1 r.2).flatMap (fun l => Text.splitLineFeeds l.toList) =
      (n.rows.map fun r => (rowLines n.keyWidth r.1 r.2).map String.toList).flatten := by
    rw [Text.flatMap_splitLineFeeds, List.map_flatMap, List.flatMap_def]
    intro line hline
    obtain ⟨r, hr, hline⟩ := List.mem_flatMap.mp hline
    exact not_mem_rowLines (h r hr) hline
  rw [displayed, text, Text.splitLineFeeds_unlines (by simp [allLines]), allLines, List.cons_append, List.flatMap_cons,
    List.flatMap_append, hrows, List.flatMap_map, List.append_assoc]

private theorem length_le_keyWidth {n : Notice} {r : String × String} (h : r ∈ n.rows) : r.1.length ≤ n.keyWidth :=
  Nat.le_trans (length_le_widest (List.mem_map_of_mem h)) (Nat.le_add_right _ 2)

end Notice

namespace Session

variable {s : Session} {m : Nat} {mock : Mock}

/-- The column of the word "expected" in the report of an audit: behind the signatures, which are indented by two
    blanks and followed by three. -/
def tallyColumn (unsatisfied : List Expectation) : Nat :=
  2 + Notice.widest (unsatisfied.map Expectation.signature) + 3

/-- How many calls an unsatisfied expectation wants and has, in words. -/
def tally (e : Expectation) : String :=
  let want := max e.times 1
  "expected " ++ toString want ++ " " ++ callsWord want ++ " received " ++ toString e.count ++ " " ++ callsWord e.count

/-- How an expectation looks in the report of an audit: its signature, and from the column on how often it was
    called. -/
structure ListsExpectation (column : Nat) (e : Expectation) (line : List Char) : Prop where
  reaches : column ≤ line.length
  front : ∃ gap, line.take column = [' ', ' '] ++ e.signature.toList ++ List.replicate gap ' '
  tally : line.drop column = (tally e).toList

/-- What stands in a line of the report in front of the column. -/
def signatureFront (width : Nat) (e : Expectation) : List Char :=
  [' ', ' '] ++ (Notice.padRight width e.signature).toList ++ [' ', ' ', ' ']

private theorem length_signatureFront {width : Nat} {e : Expectation} (h : e.signature.length ≤ width) :
    (signatureFront width e).length = 2 + width + 3 := by
  simp only [signatureFront, List.length_append, Notice.length_toList_padRight h, List.length_cons, List.length_nil]

private theorem toList_auditLine (width : Nat) (e : Expectation) :
    ("  " ++ auditLine width e).toList = signatureFront width e ++ (tally e).toList := by
  simp [auditLine, tally, signatureFront]

private theorem listsExpectation_auditLine {width : Nat} {e : Expectation} (h : e.signature.length ≤ width) :
    ListsExpectation (2 + width + 3) e ("  " ++ auditLine width e).toList := by
  have hfront := length_signatureFront h
  rw [toList_auditLine]
  refine ⟨?_, ⟨width - e.signature.length + 3, ?_⟩, List.drop_left' hfront⟩
  · rw [List.length_append, hfront]
    exact Nat.le_add_right _ _
  · rw [List.take_left' hfront, signatureFront, Notice.padRight, String.toList_append, Notice.toList_padding,
      List.replicate_add]
    simp only [List.append_assoc]
    rfl

private theorem not_mem_callsWord (n : Nat) : '\n' ∉ (callsWord n).toList := by
  unfold callsWord
  split <;> decide

private theorem not_mem_toDigits (n : Nat) : '\n' ∉ Nat.toDigits 10 n := fun h =>
  absurd (Nat.isDigit_of_mem_toDigits (by decide) (by decide) h) (by decide)

private theorem not_mem_auditLine {width : Nat} {e : Expectation} (h : '\n' ∉ e.signature.toList) :
    '\n' ∉ ("  " ++ auditLine width e).toList := by
  simp [auditLine, Notice.padRight, h, not_mem_callsWord, not_mem_toDigits]

/-- The report of an audit is displayed as its header and one line for each expectation. -/
theorem displayed_auditFailure {unsatisfied : List Expectation} (h : ∀ e ∈ unsatisfied, '\n' ∉ e.signature.toList) :
    (auditFailure unsatisfied).displayed = (Notice.tooFewCalls ++ ":").toList ::
      unsatisfied.map fun e =>
        ("  " ++ auditLine (Notice.widest (unsatisfied.map Expectation.signature)) e).toList := by
  have hheader : '\n' ∉ (Notice.tooFewCalls ++ ":").toList := by decide
  have hlines : ∀ l ∈ (auditFailure unsatisfied).lines.map ("  " ++ ·), '\n' ∉ l.toList := by
    simp only [auditFailure, List.map_map, List.forall_mem_map]
    exact fun e he => not_mem_auditLine (h e he)
  rw [Notice.displayed_eq (by simp [auditFailure]), ← List.flatMap_map ("  " ++ ·) fun l => Text.splitLineFeeds l.toList,
    Text.flatMap_splitLineFeeds hlines]
  simp only [auditFailure, Text.splitLineFeeds_of_not_mem hheader, List.map_nil, List.flatten_nil, List.append_nil,
    List.map_map, List.singleton_append]
  rfl

end Session

/-- Failures are displayed in columns, whatever characters they have. If no key of a notice has a line feed, the lines
    of each row show its value from one column on, the same for all rows; they stand between the lines of the header
    and those of the free lines. The report of an audit of expectations whose signatures have no line feed has one line
    for each of them, in which the word "expected" stands at one column. -/
theorem values_and_tallies_stand_in_columns :
    (∀ n : Notice, (∀ r ∈ n.rows, '\n' ∉ r.1.toList) →
      ∃ shown, List.Forall₂ (fun r lines => Notice.ShowsRow n.valueColumn r.1 r.2 lines) n.rows shown ∧
        n.displayed = Text.splitLineFeeds (n.header ++ ":").toList ++ shown.flatten ++
          n.lines.flatMap fun l => Text.splitLineFeeds ("  " ++ l).toList) ∧
    ∀ (s : Session) (m : Nat) (mock : Mock), s.mock? m = some mock → mock.audited? = none → mock.failed = false →
      s.unsatisfied m ≠ [] → (∀ c ∈ s.unsatisfied m, '\n' ∉ c.2.signature.toList) →
      ∃ report listed, (s.audit m).1.spy.errors = s.spy.errors ++ [report] ∧
        Text.splitLineFeeds report.toList = (Notice.tooFewCalls ++ ":").toList :: listed ∧
        List.Forall₂
          (fun c line => Session.ListsExpectation (Session.tallyColumn ((s.unsatisfied m).map (·.2))) c.2 line)
          (s.unsatisfied m) listed := by
  constructor
  · intro n hkeys
    refine ⟨_, ?_, Notice.displayed_eq hkeys⟩
    rw [List.forall₂_map_right_iff, List.forall₂_same]
    exact fun r hr => Notice.showsRow_rowLines (Notice.length_le_keyWidth hr) r.2
  · intro s m mock hmock hfirst hfailed hunsatisfied hsignatures
    have hreport : s.shortfall m = [(Session.auditFailure ((s.unsatisfied m).map (·.2))).text] := by
      unfold Session.shortfall
      split
      · exact absurd ‹_› hunsatisfied
      · rfl
    have herrors := (Session.audit_of_not_failed hmock hfirst hfailed).1
    refine ⟨_, _, hreport ▸ herrors, Session.displayed_auditFailure (List.forall_mem_map.mpr hsignatures), ?_⟩
    rw [List.map_map, List.forall₂_map_right_iff, List.forall₂_same]
    refine fun c hc => Session.listsExpectation_auditLine (Notice.length_le_widest ?_)
    exact List.mem_map_of_mem (List.mem_map_of_mem hc)

/-- A notice with keys whose bytes are more than their characters, a value of two lines and a value without lines. -/
def polyglotNotice : Notice :=
  ⟨Notice.unexpectedCall, [("méthode", "Größe(i32)"), ("参数", "0: FAIL\n1: PASS"), ("x", "")], ["Ende"]⟩

/-- A mock that waits for a call of two methods, one of them with a name whose bytes are more than its characters. -/
def polyglotSession : Session :=
  (((Session.start false).onAny 0 "名前" "names.rs:1").1.onAny 0 "size" "names.rs:2").1

theorem columns_of_polyglot :
    (∀ r ∈ polyglotNotice.rows, '\n' ∉ r.1.toList) ∧ polyglotNotice.valueColumn = 12 ∧
    (∃ shown, List.Forall₂ (fun r lines => Notice.ShowsRow 12 r.1 r.2 lines) polyglotNotice.rows shown ∧
      polyglotNotice.displayed = Text.splitLineFeeds (polyglotNotice.header ++ ":").toList ++ shown.flatten ++
        polyglotNotice.lines.flatMap fun l => Text.splitLineFeeds ("  " ++ l).toList) ∧
    (polyglotSession.unsatisfied 0).length = 2 ∧
    ∃ report listed, (polyglotSession.audit 0).1.spy.errors = [report] ∧
      Text.splitLineFeeds report.toList = (Notice.tooFewCalls ++ ":").toList :: listed ∧
      List.Forall₂ (fun c line => Session.ListsExpectation 16 c.2 line) (polyglotSession.unsatisfied 0) listed := by
  have hkeys : ∀ r ∈ polyglotNotice.rows, '\n' ∉ r.1.toList := by decide
  have hlength : (polyglotSession.unsatisfied 0).length = 2 := rfl
  have hsignatures : ∀ c ∈ polyglotSession.unsatisfied 0, '\n' ∉ c.2.signature.toList := by
    simp only [polyglotSession, Session.unsatisfied]
    decide
  exact ⟨hkeys, by decide, values_and_tallies_stand_in_columns.1 polyglotNotice hkeys, hlength,
    values_and_tallies_stand_in_columns.2 polyglotSession 0 _ rfl rfl rfl
      (List.ne_nil_of_length_pos (hlength ▸ Nat.zero_lt_two)) hsignatures⟩

end TraitMock
