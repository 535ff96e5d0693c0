import Mathlib.Data.List.Basic
import TraitMock.Golden

namespace TraitMock.Golden

section Lines

/-- A line with its line feed. -/
def IsComplete (line : List UInt8) : Prop := ∃ body, lineFeed ∉ body ∧ line = body ++ [lineFeed]

/-- What is empty or ends with a line feed. -/
def EndsLine (bytes : List UInt8) : Prop := bytes = [] ∨ bytes.getLast? = some lineFeed

/-- A line of a content, together with its line feed, which only the last line may be without. -/
def IsLineOf (line content : List UInt8) : Prop :=
  ∃ before after, content = before ++ line ++ after ∧ EndsLine before ∧
    (IsComplete line ∨ after = [] ∧ line ≠ [] ∧ lineFeed ∉ line)

/-- A commentary: it ends with a line feed if it is not empty, and none of its lines is the marker. -/
def IsHeader (bytes : List UInt8) : Prop := EndsLine bytes ∧ ¬IsLineOf marker bytes

theorem isComplete_marker : IsComplete marker := ⟨[45, 45, 45], by decide, rfl⟩

theorem IsComplete.ne_nil {line : List UInt8} (h : IsComplete line) : line ≠ [] := by
  obtain ⟨body, -, rfl⟩ := h
  simp

theorem IsComplete.getLast? {line : List UInt8} (h : IsComplete line) : line.getLast? = some lineFeed := by
  obtain ⟨body, -, rfl⟩ := h
  simp

theorem EndsLine.of_append {front bytes : List UInt8} (h : EndsLine (front ++ bytes)) : EndsLine bytes := by
  by_cases hnil : bytes = []
  · exact .inl hnil
  · rcases h with hboth | hlast
    · exact absurd (List.append_eq_nil_iff.mp hboth).2 hnil
    · exact .inr (by rwa [List.getLast?_append_of_ne_nil _ hnil] at hlast)

/-- Every content consists of complete lines and a rest without a line feed. -/
theorem exists_lines (bytes : List UInt8) :
    ∃ (lines : List (List UInt8)) (tail : List UInt8),
      (∀ line ∈ lines, IsComplete line) ∧ lineFeed ∉ tail ∧ bytes = lines.flatten ++ tail := by
  by_cases h : lineFeed ∈ bytes
  · obtain ⟨body, rest, hbytes, hbody⟩ := List.eq_append_cons_of_mem h
    have hshorter : rest.length < bytes.length := by
      rw [hbytes, List.length_append, List.length_cons]
      omega
    obtain ⟨lines, tail, hlines, htail, hrest⟩ := exists_lines rest
    refine ⟨(body ++ [lineFeed]) :: lines, tail, List.forall_mem_cons.mpr ⟨⟨body, hbody, rfl⟩, hlines⟩, htail, ?_⟩
    rw [hbytes, hrest]
    simp
  · exact ⟨[], bytes, List.forall_mem_nil _, h, rfl⟩
termination_by bytes.length

private theorem isLineOf_of_mem {lines : List (List UInt8)} (h : ∀ line ∈ lines, IsComplete line) {line : List UInt8}
    (hline : line ∈ lines) (tail : List UInt8) : IsLineOf line (lines.flatten ++ tail) := by
  obtain ⟨front, back, rfl⟩ := List.append_of_mem hline
  refine ⟨front.flatten, back.flatten ++ tail, by simp, ?_, .inl (h line hline)⟩
  rcases List.eq_nil_or_concat' front with rfl | ⟨before, last, rfl⟩
  · exact .inl rfl
  · have hlast := h last (by simp)
    right
    rw [List.flatten_append, List.flatten_singleton, List.getLast?_append_of_ne_nil _ hlast.ne_nil, hlast.getLast?]

end Lines

section Cutting

theorem cutLine_line {line : List UInt8} (h : IsComplete line) (rest : List UInt8) :
    cutLine (line ++ rest) = (line, rest) := by
  obtain ⟨body, hbody, rfl⟩ := h
  induction body with
  | nil => simp [cutLine]
  | cons b body ih =>
    rw [List.mem_cons, not_or] at hbody
    rw [List.cons_append, List.cons_append, cutLine, if_neg fun heq => hbody.1 heq.symm, ih hbody.2]

private theorem cutLine_of_not_mem {bytes : List UInt8} (h : lineFeed ∉ bytes) : cutLine bytes = (bytes, []) := by
  induction bytes with
  | nil => rfl
  | cons b bytes ih =>
    rw [List.mem_cons, not_or] at h
    rw [cutLine, if_neg fun heq => h.1 heq.symm, ih h.2]

theorem split_eq {bytes : List UInt8} (h : bytes ≠ []) :
    split bytes = if (cutLine bytes).1 = marker then some (cutLine bytes).2 else split (cutLine bytes).2 := by
  obtain ⟨b, rest, rfl⟩ := List.exists_cons_of_ne_nil h
  rw [split]

/-- One line is looked at after the other. -/
theorem split_line {line : List UInt8} (h : IsComplete line) (rest : List UInt8) :
    split (line ++ rest) = if line = marker then some rest else split rest := by
  rw [split_eq (by simp [h.ne_nil]), cutLine_line h]

private theorem split_of_not_mem {bytes : List UInt8} (h : lineFeed ∉ bytes) : split bytes = none := by
  by_cases hnil : bytes = []
  · rw [hnil, split]
  · have hother : bytes ≠ marker := fun heq => h (heq ▸ by decide)
    rw [split_eq hnil, cutLine_of_not_mem h, if_neg hother, split]

/-- A complete line of a content is its first line or stands behind that. -/
theorem isLineOf_append {line first : List UInt8} (hline : IsComplete line) (hfirst : IsComplete first)
    {rest : List UInt8} (h : IsLineOf line (first ++ rest)) : line = first ∨ IsLineOf line rest := by
  obtain ⟨before, after, heq, hbefore, -⟩ := h
  rw [List.append_assoc] at heq
  rcases List.append_eq_append_iff.mp heq with ⟨between, rfl, hrest⟩ | ⟨between, hsplit, hrest⟩
  · exact .inr ⟨between, after, by rw [hrest, List.append_assoc], hbefore.of_append, .inl hline⟩
  · rcases hbefore with rfl | hlast
    · have hcut := congrArg cutLine heq
      rw [List.nil_append, cutLine_line hfirst, cutLine_line hline] at hcut
      exact .inl (Prod.ext_iff.mp hcut).1.symm
    · -- in front of its end, the first line has no line feed
      by_cases hnil : between = []
      · rw [hnil, List.nil_append] at hrest
        exact .inr ⟨[], after, by rw [← hrest, List.nil_append], .inl rfl, .inl hline⟩
      · obtain ⟨body, hbody, hends⟩ := hfirst
        have hdrop := congrArg List.dropLast (hsplit.symm.trans hends)
        rw [List.dropLast_concat, List.dropLast_append_of_ne_nil hnil] at hdrop
        have hmem : lineFeed ∈ before := List.mem_of_getLast? hlast
        exact absurd (hdrop ▸ List.mem_append_left _ hmem) hbody

/-- A commentary is made of complete lines other than the marker. -/
theorem isHeader_iff {bytes : List UInt8} :
    IsHeader bytes ↔
      ∃ lines : List (List UInt8), (∀ line ∈ lines, IsComplete line ∧ line ≠ marker) ∧ bytes = lines.flatten := by
  constructor
  · rintro ⟨hends, hmarker⟩
    obtain ⟨lines, tail, hlines, htail, rfl⟩ := exists_lines bytes
    have hnil : tail = [] := by
      rcases hends.of_append with hnil | hlast
      · exact hnil
      · exact absurd (List.mem_of_getLast? hlast) htail
    have hother : ∀ line ∈ lines, line ≠ marker := by
      rintro line hline rfl
      exact hmarker (isLineOf_of_mem hlines hline tail)
    exact ⟨lines, fun line hline => ⟨hlines line hline, hother line hline⟩, by rw [hnil, List.append_nil]⟩
  · rintro ⟨lines, hlines, rfl⟩
    induction lines with
    | nil =>
      refine ⟨.inl rfl, ?_⟩
      rintro ⟨before, after, heq, -⟩
      simp [marker] at heq
    | cons line lines ih =>
      obtain ⟨⟨hcomplete, hother⟩, hrest⟩ := List.forall_mem_cons.mp hlines
      obtain ⟨hends, hmarker⟩ := ih hrest
      rw [List.flatten_cons]
      refine ⟨.inr ?_, fun hline => ?_⟩
      · rcases hends with hnil | hlast
        · rw [hnil, List.append_nil, hcomplete.getLast?]
        · rw [List.getLast?_append, hlast, Option.some_or]
      · rcases isLineOf_append isComplete_marker hcomplete hline with heq | hbehind
        · exact hother heq.symm
        · exact hmarker hbehind

/-- What is behind the first marker line is found, whatever is in it. -/
theorem split_header {lines : List (List UInt8)} (h : ∀ line ∈ lines, IsComplete line ∧ line ≠ marker)
    (data : List UInt8) : split (lines.flatten ++ marker ++ data) = some data := by
  induction lines with
  | nil => rw [List.flatten_nil, List.nil_append, split_line isComplete_marker, if_pos rfl]
  | cons line lines ih =>
    obtain ⟨⟨hcomplete, hother⟩, hrest⟩ := List.forall_mem_cons.mp h
    rw [List.flatten_cons, List.append_assoc, List.append_assoc, split_line hcomplete, if_neg hother,
      ← List.append_assoc, ih hrest]

private theorem exists_header_of_split {bytes data : List UInt8} (h : split bytes = some data) :
    ∃ lines : List (List UInt8),
      (∀ line ∈ lines, IsComplete line ∧ line ≠ marker) ∧ bytes = lines.flatten ++ marker ++ data := by
  obtain ⟨lines, tail, hlines, htail, rfl⟩ := exists_lines bytes
  induction lines with
  | nil =>
    rw [List.flatten_nil, List.nil_append, split_of_not_mem htail] at h
    cases h
  | cons line lines ih =>
    obtain ⟨hcomplete, hrest⟩ := List.forall_mem_cons.mp hlines
    rw [List.flatten_cons, List.append_assoc, split_line hcomplete] at h
    by_cases hmarker : line = marker
    · rw [if_pos hmarker] at h
      exact ⟨[], List.forall_mem_nil _, by simp [hmarker, ← Option.some.inj h]⟩
    · rw [if_neg hmarker] at h
      obtain ⟨front, hfront, heq⟩ := ih hrest h
      exact ⟨line :: front, List.forall_mem_cons.mpr ⟨⟨hcomplete, hmarker⟩, hfront⟩, by
        rw [List.flatten_cons, List.append_assoc, heq]
        simp⟩

theorem split_eq_some_iff {bytes data : List UInt8} :
    split bytes = some data ↔ ∃ header, IsHeader header ∧ bytes = header ++ marker ++ data := by
  constructor
  · intro h
    obtain ⟨lines, hlines, heq⟩ := exists_header_of_split h
    exact ⟨lines.flatten, isHeader_iff.mpr ⟨lines, hlines, rfl⟩, heq⟩
  · rintro ⟨header, hheader, rfl⟩
    obtain ⟨lines, hlines, rfl⟩ := isHeader_iff.mp hheader
    exact split_header hlines data

end Cutting

section Loading

variable (t : Spy) (path : String)

private theorem loadBytes_of_split {bytes data : List UInt8} (h : split bytes = some data) :
    loadBytes t path (.ok bytes) = (t.helper, .ok data) := by
  simp only [loadBytes, h]

/-- The failure of a golden file without a marker line. -/
def markerMissing : String := failure path "missing \"---\" marker line"

private theorem loadBytes_of_split_eq_none {bytes : List UInt8} (h : split bytes = none) :
    loadBytes t path (.ok bytes) = (t.helper.fatal (markerMissing path), .error (.fatal (markerMissing path))) := by
  simp only [loadBytes, h, fail, markerMissing]

end Loading

/-- Where the data of a golden file begins. It is what stands behind a commentary and the marker, where no line of the
    commentary is the marker and the last one is complete; a content can be taken apart like that in one way at most.
    Loading gives the data unchanged, whatever marker lines it has, and ends the test with a failure if there is no
    marker line. -/
theorem data_begins_behind_first_marker (bytes : List UInt8) :
    (∀ data, split bytes = some data ↔ ∃ header, IsHeader header ∧ bytes = header ++ marker ++ data) ∧
    (∀ header data header' data', IsHeader header → IsHeader header' → bytes = header ++ marker ++ data →
      bytes = header' ++ marker ++ data' → header = header' ∧ data = data') ∧
    (split bytes = none ↔ ¬∃ header data, IsHeader header ∧ bytes = header ++ marker ++ data) ∧
    ∀ (t : Spy) (path : String),
      (split bytes = none → loadBytes t path (.ok bytes) =
        (t.helper.fatal (markerMissing path), .error (.fatal (markerMissing path)))) ∧
      ∀ (lines : List (List UInt8)) (data : List UInt8), (∀ line ∈ lines, IsComplete line ∧ line ≠ marker) →
        bytes = lines.flatten ++ marker ++ data → loadBytes t path (.ok bytes) = (t.helper, .ok data) := by
  refine ⟨fun data => split_eq_some_iff, fun header data header' data' hh hh' heq heq' => ?_, ?_,
    fun t path => ⟨?_, ?_⟩⟩
  · have hdata := split_eq_some_iff.mpr ⟨header, hh, heq⟩
    have hdata' := split_eq_some_iff.mpr ⟨header', hh', heq'⟩
    obtain rfl : data = data' := Option.some.inj (hdata.symm.trans hdata')
    rw [List.append_assoc] at heq heq'
    exact ⟨List.append_cancel_right (heq.symm.trans heq'), rfl⟩
  · rw [Option.eq_none_iff_forall_ne_some]
    constructor
    · rintro hnone ⟨header, data, hheader, heq⟩
      exact hnone data (split_eq_some_iff.mpr ⟨header, hheader, heq⟩)
    · intro hnot data hsome
      obtain ⟨header, hheader, heq⟩ := split_eq_some_iff.mp hsome
      exact hnot ⟨header, data, hheader, heq⟩
  · exact loadBytes_of_split_eq_none t path
  · rintro lines data hlines rfl
    exact loadBytes_of_split t path (split_header hlines data)

section Fixture

/-- Two lines of a commentary: the marker behind a blank, and the marker with a carriage return. -/
def almostMarkers : List (List UInt8) := [[32, 45, 45, 45, 10], [45, 45, 45, 13, 10]]

/-- Data that has a marker line of its own, and ends in one without a line feed. -/
def markedData : List UInt8 := [97, 10, 45, 45, 45, 10, 45, 45, 45]

theorem data_of_fixture :
    (∀ line ∈ almostMarkers, IsComplete line ∧ line ≠ marker) ∧ IsHeader almostMarkers.flatten ∧
    loadBytes {} "a.golden" (.ok (almostMarkers.flatten ++ marker ++ markedData)) =
      (({} : Spy).helper, .ok markedData) ∧
    (∀ header data, IsHeader header → almostMarkers.flatten ++ marker ++ markedData = header ++ marker ++ data →
      header = almostMarkers.flatten ∧ data = markedData) ∧
    split almostMarkers.flatten = none ∧
    loadBytes {} "a.golden" (.ok almostMarkers.flatten) =
      (({} : Spy).helper.fatal (markerMissing "a.golden"), .error (.fatal (markerMissing "a.golden"))) := by
  have hlines : ∀ line ∈ almostMarkers, IsComplete line ∧ line ≠ marker := by
    refine List.forall_mem_cons.mpr ⟨⟨⟨[32, 45, 45, 45], by decide, rfl⟩, by decide⟩, ?_⟩
    exact List.forall_mem_singleton.mpr ⟨⟨[45, 45, 45, 13], by decide, rfl⟩, by decide⟩
  have hheader : IsHeader almostMarkers.flatten := isHeader_iff.mpr ⟨almostMarkers, hlines, rfl⟩
  have hnone : split almostMarkers.flatten = none := by
    simp [almostMarkers, split, cutLine, lineFeed, marker]
  obtain ⟨-, hunique, -, hloads⟩ :=
    data_begins_behind_first_marker (almostMarkers.flatten ++ marker ++ markedData)
  refine ⟨hlines, hheader, (hloads {} "a.golden").2 almostMarkers markedData hlines rfl, ?_, hnone, ?_⟩
  · exact fun header data h heq => hunique header data _ _ h hheader heq rfl
  · exact ((data_begins_behind_first_marker almostMarkers.flatten).2.2.2 {} "a.golden").1 hnone

end Fixture

end TraitMock.Golden
