import TraitMock.Generation.SnakeCase
import Mathlib.Data.List.Basic

namespace TraitMock.Generation

open Text (isUppercase isLowercase)

/-- The characters of ASCII. -/
def IsAscii (c : Char) : Prop := c.toNat < 128

instance : DecidablePred IsAscii := fun c => inferInstanceAs (Decidable (c.toNat < 128))

/-- Whether a word begins at a place of a name: there is an uppercase letter, and in front of it a lowercase letter, a
    digit, or another uppercase letter while a lowercase letter follows. -/
def beginsWordAt (cs : List Char) (i : Nat) : Bool :=
  0 < i && cs[i]?.any Char.isUpper &&
    cs[i - 1]?.any fun p => p.isLower || p.isDigit || p.isUpper && cs[i + 1]?.any Char.isLower

/-- What stands for the character at a place: its lowercase form, behind one underscore if a word begins there. -/
def writtenAt (cs : List Char) (i : Nat) (c : Char) : List Char :=
  if beginsWordAt cs i then ['_', c.toLower] else [c.toLower]

section Letters

variable {c : Char}

theorem isUppercase_of_isAscii (h : IsAscii c) : isUppercase c = c.isUpper := if_pos h

theorem isLowercase_of_isAscii (h : IsAscii c) : isLowercase c = c.isLower := if_pos h

theorem lowercaseForm_of_isAscii (h : IsAscii c) : Text.lowercaseForm c = [c.toLower] := if_pos h

theorem toLower_of_not_isUpper (h : c.isUpper = false) : c.toLower = c := by
  have hupper : ¬(c.val ≥ 'A'.val ∧ c.val ≤ 'Z'.val) := of_decide_eq_false h
  exact dif_neg hupper

/-- No lowercase form is an uppercase letter. -/
theorem isUppercase_toLower (h : IsAscii c) : isUppercase c.toLower = false := by
  have hall : ∀ n < 128, isUppercase (Char.ofNat n).toLower = false := by decide
  rw [← Char.ofNat_toNat c]
  exact hall c.toNat h

/-- Behind an underscore no word begins that is not begun already. -/
theorem underscore_is_no_letter : '_'.isLower = false ∧ '_'.isDigit = false ∧ '_'.isUpper = false := by decide

end Letters

section Places

variable {c : Char} {front rest cs : List Char}

private theorem beginsWordAt_eq_false (h : c.isUpper = false) : beginsWordAt (front ++ c :: rest) front.length = false := by
  simp [beginsWordAt, h]

/-- Whether an underscore is put in front of an uppercase letter is told by its two neighbours. -/
theorem beginsWord_some {p : Char} {next : Option Char} (hp : IsAscii p) (hnext : ∀ n ∈ next, IsAscii n) :
    beginsWord (some p) next = (p.isLower || p.isDigit || p.isUpper && next.any Char.isLower) := by
  have hunder := underscore_is_no_letter
  cases next with
  | none =>
    simp only [beginsWord, isLowercase_of_isAscii hp, isUppercase_of_isAscii hp]
    split_ifs with hp' hbefore hbig <;> simp_all
  | some n =>
    have hn := isLowercase_of_isAscii (hnext n rfl)
    simp only [beginsWord, isLowercase_of_isAscii hp, isUppercase_of_isAscii hp]
    split_ifs with hp' hbefore hbig <;> simp_all

private theorem beginsWord_eq (hascii : ∀ d ∈ front ++ c :: rest, IsAscii d) (hc : c.isUpper = true) :
    beginsWord front.getLast? rest.head? = beginsWordAt (front ++ c :: rest) front.length := by
  have hhere : (front ++ c :: rest)[front.length]? = some c := by simp
  have hnext : (front ++ c :: rest)[front.length + 1]? = rest.head? := by
    rw [List.getElem?_append_right (by omega)]
    simp [List.head?_eq_getElem?]
  rcases List.eq_nil_or_concat' front with rfl | ⟨init, p, rfl⟩
  · simp [beginsWord, beginsWordAt]
  · have hbefore : (init ++ [p] ++ c :: rest)[(init ++ [p]).length - 1]? = some p := by simp
    have hfollowing : ∀ n ∈ rest.head?, IsAscii n := fun n hn => hascii n (by simp [List.mem_of_head? hn])
    rw [List.getLast?_concat, beginsWord_some (hascii p (by simp)) hfollowing, beginsWordAt, hbefore, hhere, hnext]
    simp [hc]

end Places

section Names

variable {cs : List Char}

/-- In snake case a name is written place by place. `front` is what of it has been written. -/
theorem snakeFrom_eq (front rest : List Char) (hascii : ∀ c ∈ front ++ rest, IsAscii c) :
    snakeFrom front.getLast? rest =
      (rest.mapIdx fun i c => writtenAt (front ++ rest) (front.length + i) c).flatten := by
  induction rest generalizing front with
  | nil => rfl
  | cons c rest ih =>
    have hsplit : front ++ c :: rest = front ++ [c] ++ rest := List.append_cons front c rest
    have hc : IsAscii c := hascii c (by simp)
    have htail := ih (front ++ [c]) (hsplit ▸ hascii)
    rw [List.getLast?_concat, ← hsplit] at htail
    have hplaces : ∀ i, (front ++ [c]).length + i = front.length + (i + 1) := by
      intro i
      rw [List.length_append, List.length_singleton]
      omega
    simp only [hplaces] at htail
    rw [snakeFrom, htail, List.mapIdx_cons, List.flatten_cons, Nat.add_zero]
    by_cases hupper : c.isUpper = true
    · rw [isUppercase_of_isAscii hc, if_pos hupper, lowercaseForm_of_isAscii hc, beginsWord_eq hascii hupper, writtenAt]
      cases beginsWordAt (front ++ c :: rest) front.length <;> rfl
    · have hlower : c.isUpper = false := eq_false_of_ne_true hupper
      rw [isUppercase_of_isAscii hc, if_neg hupper, writtenAt, beginsWordAt_eq_false hlower,
        if_neg Bool.false_ne_true, toLower_of_not_isUpper hlower, List.singleton_append]

private theorem mem_writtenAt {i : Nat} {c d : Char} (h : d ∈ writtenAt cs i c) : d = '_' ∨ d = c.toLower := by
  unfold writtenAt at h
  split at h
  · simpa using h
  · exact .inr (by simpa using h)

/-- Without underscores, a name in snake case is its lowercase form. -/
theorem filter_snakeFrom {prev : Option Char} (hascii : ∀ c ∈ cs, IsAscii c) :
    (snakeFrom prev cs).filter (· ≠ '_') = (cs.map Char.toLower).filter (· ≠ '_') := by
  induction cs generalizing prev with
  | nil => rfl
  | cons c cs ih =>
    obtain ⟨hc, hcs⟩ := List.forall_mem_cons.mp hascii
    rw [snakeFrom, List.map_cons, isUppercase_of_isAscii hc]
    split
    · have hmark : ∀ b : Bool, (if b then ['_'] else []).filter (· ≠ '_') = [] := by decide
      rw [List.filter_append, List.filter_append, hmark, ih hcs, lowercaseForm_of_isAscii hc, List.nil_append,
        ← List.filter_append, List.singleton_append]
    · rename_i hupper
      rw [toLower_of_not_isUpper (eq_false_of_ne_true hupper), List.filter_cons, List.filter_cons, ih hcs]

/-- A name without uppercase letters is in snake case. -/
theorem snakeFrom_of_lower {prev : Option Char} (h : ∀ c ∈ cs, isUppercase c = false) : snakeFrom prev cs = cs := by
  induction cs generalizing prev with
  | nil => rfl
  | cons c cs ih =>
    obtain ⟨hc, hcs⟩ := List.forall_mem_cons.mp h
    rw [snakeFrom, if_neg (by simp [hc]), ih hcs]

end Names

/-- A name in ASCII is put into snake case place by place: each character becomes its lowercase form, and there is one
    underscore in front of an uppercase letter behind a lowercase letter or a digit, and in front of one between an
    uppercase and a lowercase letter, and no other underscore that the name does not have. So the name has lost nothing
    but its case, no uppercase letter is left, and a second time nothing is changed. -/
theorem snakeCase_marks_words (s : String) (hascii : ∀ c ∈ s.toList, IsAscii c) :
    (snakeCase s).toList = (s.toList.mapIdx (writtenAt s.toList)).flatten ∧
    (snakeCase s).toList.filter (· ≠ '_') = (s.toList.map Char.toLower).filter (· ≠ '_') ∧
    (∀ c ∈ (snakeCase s).toList, isUppercase c = false) ∧
    snakeCase (snakeCase s) = snakeCase s := by
  have hplaces : (snakeCase s).toList = (s.toList.mapIdx (writtenAt s.toList)).flatten := by
    have hfrom := snakeFrom_eq [] s.toList hascii
    simp only [List.nil_append, List.length_nil, Nat.zero_add] at hfrom
    rw [snakeCase, String.toList_ofList]
    exact hfrom
  have hlower : ∀ c ∈ (snakeCase s).toList, isUppercase c = false := by
    intro c hc
    rw [hplaces, List.mem_flatten] at hc
    obtain ⟨written, hwritten, hmem⟩ := hc
    obtain ⟨i, hi, rfl⟩ := List.mem_mapIdx.mp hwritten
    rcases mem_writtenAt hmem with rfl | rfl
    · decide
    · exact isUppercase_toLower (hascii _ (List.getElem_mem hi))
  refine ⟨hplaces, ?_, hlower, ?_⟩
  · rw [snakeCase, String.toList_ofList, filter_snakeFrom hascii]
  · rw [snakeCase, snakeFrom_of_lower hlower, String.ofList_toList]

/-- An acronym, a digit and an underscore of the name. -/
theorem snakeCase_of_acronym :
    (∀ c ∈ "HTTPClient2_XMLMock".toList, IsAscii c) ∧
    snakeCase "HTTPClient2_XMLMock" = "http_client2_xml_mock" ∧
    snakeCase "http_client2_xml_mock" = "http_client2_xml_mock" := by
  have hall : "HTTPClient2_XMLMock".toList.all (fun c => decide (IsAscii c)) = true := by decide
  have hascii : ∀ c ∈ "HTTPClient2_XMLMock".toList, IsAscii c :=
    fun c hc => of_decide_eq_true (List.all_eq_true.mp hall c hc)
  obtain ⟨hplaces, -, -, hagain⟩ := snakeCase_marks_words "HTTPClient2_XMLMock" hascii
  have hsnake : snakeCase "HTTPClient2_XMLMock" = "http_client2_xml_mock" := by
    apply String.toList_injective
    rw [hplaces]
    decide
  rw [hsnake] at hagain
  exact ⟨hascii, hsnake, hagain⟩

end TraitMock.Generation
