import TraitMock.Proofs.Syntax.Lexemes

namespace TraitMock.Text

section Classes

/-- Two boundaries that follow each other, the second of which is at `i`, stand on both sides of a number. -/
structure Encloses (bounds : List Nat) (n i : Nat) : Prop where
  le_length : i ≤ bounds.length
  below : ∀ b, 0 < i → bounds[i - 1]? = some b → b ≤ n
  above : ∀ b, bounds[i]? = some b → n < b

/-- Halving an interval keeps a boundary below the number in front of it, and one above the number at its end. -/
theorem encloses_boundariesUpTo {bounds : Array Nat} {n lo hi : Nat} (hle : lo ≤ hi) (hsize : hi ≤ bounds.size)
    (hbelow : ∀ b, 0 < lo → bounds[lo - 1]? = some b → b ≤ n) (habove : ∀ b, bounds[hi]? = some b → n < b) :
    Encloses bounds.toList n (boundariesUpTo bounds n lo hi) := by
  fun_induction boundariesUpTo bounds n lo hi with
  | case1 lo hi hless mid b hb hbn ih =>
    refine ih (by omega) hsize (fun c _ hc => ?_) habove
    rw [Nat.add_sub_cancel, hb] at hc
    exact Option.some.inj hc ▸ hbn
  | case2 lo hi hless mid b hb hbn ih =>
    refine ih (by omega) (by omega) hbelow fun c hc => ?_
    rw [hb] at hc
    exact Option.some.inj hc ▸ Nat.lt_of_not_le hbn
  | case3 lo hi hless mid hb =>
    rw [Array.getElem?_eq_none_iff] at hb
    omega
  | case4 lo hi hnot =>
    obtain rfl : lo = hi := by omega
    exact ⟨hsize, by simpa using hbelow, by simpa using habove⟩

theorem exists_encloses {bounds : Array Nat} {n : Nat} (h : withinBoundaries bounds n = true) :
    ∃ k, Encloses bounds.toList n (2 * k + 1) := by
  have hodd : boundariesUpTo bounds n 0 bounds.size % 2 = 1 := by simpa [withinBoundaries] using h
  have hencloses : Encloses bounds.toList n (boundariesUpTo bounds n 0 bounds.size) :=
    encloses_boundariesUpTo (Nat.zero_le _) (Nat.le_refl _) (by simp) (by simp)
  refine ⟨boundariesUpTo bounds n 0 bounds.size / 2, ?_⟩
  rwa [show 2 * (boundariesUpTo bounds n 0 bounds.size / 2) + 1 = boundariesUpTo bounds n 0 bounds.size by omega]

/-- The boundaries that some gaps lead to, from `start` on. -/
def boundariesFrom (start : Nat) : List Nat → List Nat
  | [] => []
  | gap :: rest => (start + gap) :: boundariesFrom (start + gap) rest

def gapsOf (lines : List (List Char)) : List Nat :=
  (lines.flatMap fun line => (line.splitOn ' ').filter (· ≠ [])).map natOfDigits

theorem toList_boundaries (gaps : List String) :
    (boundaries gaps).toList = boundariesFrom 0 (gapsOf (gaps.map String.toList)) := by
  have hfold : ∀ (words : List (List Char)) (acc : Array Nat × Nat),
      (words.foldl (fun acc gap => (acc.1.push (acc.2 + natOfDigits gap), acc.2 + natOfDigits gap)) acc).1.toList =
        acc.1.toList ++ boundariesFrom acc.2 (words.map natOfDigits) := by
    intro words
    induction words with
    | nil => simp [boundariesFrom]
    | cons w words ih =>
      intro acc
      simp [ih, boundariesFrom]
  simpa [boundaries, gapsOf, List.flatMap_map] using hfold _ (#[], 0)

theorem boundaries_eq (gaps : List String) :
    boundaries gaps = (boundariesFrom 0 (gapsOf (gaps.map String.toList))).toArray := by
  rw [← toList_boundaries, Array.toArray_toList]

/-- Whether each of some numbers is outside all runs of a class. The boundaries are taken apart so that each is computed
    before it is compared. -/
def avoids (ns : List Nat) (start : Nat) : List Nat → Bool
  | [] => true
  | gap :: length :: rest =>
    match start + gap with
    | 0 => false
    | first + 1 =>
      match first + 1 + length with
      | 0 => false
      | behind + 1 => ns.all (fun n => n.blt (first + 1) || (behind + 1).ble n) && avoids ns (behind + 1) rest
  | _ => false

private theorem not_encloses_of_avoids {ns gaps : List Nat} {start : Nat} (h : avoids ns start gaps = true) {n : Nat}
    (hn : n ∈ ns) (k : Nat) : ¬Encloses (boundariesFrom start gaps) n (2 * k + 1) := by
  fun_induction avoids ns start gaps generalizing k with
  | case1 start =>
    rintro ⟨hlength, -, -⟩
    simp [boundariesFrom] at hlength
  | case4 start gap length rest first hfirst behind hbehind ih =>
    obtain ⟨hall, hrest⟩ := Bool.and_eq_true_iff.mp h
    have hnext : start + gap + length = behind + 1 := by rw [hfirst, hbehind]
    rintro ⟨hlength, hbelow, habove⟩
    cases k with
    | zero =>
      have hoff := List.all_eq_true.mp hall n hn
      have hlow := hbelow _ (by omega) rfl
      have hhigh := habove _ rfl
      simp only [Bool.or_eq_true, Nat.blt_eq, Nat.ble_eq] at hoff
      omega
    | succ k =>
      rw [boundariesFrom, boundariesFrom, hnext] at hlength hbelow habove
      refine ih hrest k ⟨?_, fun b hpos hb => ?_, fun b hb => ?_⟩
      · simp only [List.length_cons] at hlength
        omega
      · rw [show 2 * (k + 1) + 1 - 1 = 2 * k + 1 - 1 + 1 + 1 by omega] at hbelow
        exact hbelow b (by omega) hb
      · exact habove b hb
  | _ => cases h

/-- The blanks above ASCII. -/
def farBlanks : List Nat :=
  [133, 160, 5760, 8192, 8193, 8194, 8195, 8196, 8197, 8198, 8199, 8200, 8201, 8202, 8232, 8233, 8239, 8287, 12288]

private theorem mem_farBlanks {n : Nat} (h : withinBoundaries whitespaceBounds n = true) : n ∈ farBlanks := by
  have hbounds : whitespaceBounds.toList =
      [133, 134, 160, 161, 5760, 5761, 8192, 8203, 8232, 8234, 8239, 8240, 8287, 8288, 12288, 12289] := by
    decide +kernel
  obtain ⟨k, hlength, hbelow, habove⟩ := exists_encloses h
  rw [hbounds] at hlength hbelow habove
  have hk : k < 8 := by
    simp only [List.length_cons, List.length_nil] at hlength
    omega
  interval_cases k
  all_goals
    have hlow := hbelow _ (by decide) rfl
    have hhigh := habove _ rfl
    simp only [farBlanks, List.mem_cons, List.not_mem_nil]
    omega

private theorem avoids_nameContinueGaps :
    avoids farBlanks 0 (gapsOf (Tables.nameContinueGaps.map String.toList)) = true := by
  dsimp only [Tables.nameContinueGaps]
  simp only [List.map_cons, List.map_nil]
  -- the characters of a text take long to compute, but are there if the text is taken for a list of them
  repeat rw [String.toList_ofList]
  decide +kernel

theorem isBlank_of_isNameContinue {c : Char} (h : isNameContinue c = true) : isBlank c = false := by
  by_cases hascii : c.toNat < 128
  · have hspace : isBlank c = Syntax.isSpace c := by
      rw [isBlank, classOf, if_pos hascii]
      rfl
    rw [hspace]
    exact Syntax.isSpace_of_isNameContinue h
  · rw [isBlank, classOf, if_neg hascii]
    by_contra hblank
    have hfar := mem_farBlanks (Bool.not_eq_false _ |>.mp hblank)
    have hwithin : withinBoundaries nameContinueBounds c.toNat = true := by
      rcases Bool.or_eq_true _ _ |>.mp h with hunder | hclass
      · obtain rfl : c = '_' := by simpa using hunder
        exact absurd (by decide) hascii
      · rwa [classOf, if_neg hascii] at hclass
    obtain ⟨k, hk⟩ := exists_encloses hwithin
    rw [nameContinueBounds, toList_boundaries] at hk
    exact not_encloses_of_avoids avoids_nameContinueGaps hfar k hk

theorem isBlank_of_isSpace {c : Char} (h : Syntax.isSpace c = true) : isBlank c = true := by
  have hascii : c.toNat < 128 := by
    have hn : c = ' ' ∨ 9 ≤ c.toNat ∧ c.toNat ≤ 13 := by simpa [Syntax.isSpace] using h
    rcases hn with rfl | hn
    · decide
    · omega
  rw [isBlank, classOf, if_pos hascii]
  exact h

end Classes

section Compact

theorem compact_append (a b : String) : compact (a ++ b) = compact a ++ compact b := by
  simp [compact, String.toList_append, List.filter_append, String.ofList_append]

theorem compact_of_blanks {s : String} (h : ∀ c ∈ s.toList, isBlank c = true) : compact s = "" := by
  have hnone : s.toList.filter (fun c => !isBlank c) = [] :=
    List.filter_eq_nil_iff.mpr fun c hc => by simp [h c hc]
  rw [compact, hnone]

theorem compact_eq_self {s : String} (h : ∀ c ∈ s.toList, isBlank c = false) : compact s = s := by
  have hall : s.toList.filter (fun c => !isBlank c) = s.toList :=
    List.filter_eq_self.mpr fun c hc => by simp [h c hc]
  rw [compact, hall, String.ofList_toList]

/-- The words of a text are all of it that is not white space. -/
theorem flatten_wordsOf (cs : List Char) : (wordsOf cs).flatten = cs.filter fun c => !isBlank c := by
  have hfirst : ∀ c parts, (consFirst c parts).flatten = c :: parts.flatten := by
    intro c parts
    cases parts <;> rfl
  fun_induction wordsOf cs with
  | case1 => rfl
  | case2 c rest hc ih => rw [List.filter_cons_of_neg (by simp [hc]), ih]
  | case3 c hc => rw [List.filter_cons_of_pos (by simp [hc])]; rfl
  | case4 c hc d rest hd ih => rw [List.filter_cons_of_pos (by simp [hc]), List.flatten_cons, ih]; rfl
  | case5 c hc d rest hd ih => rw [List.filter_cons_of_pos (by simp [hc]), hfirst, ih]

/-- On one line, a text loses white space only. -/
theorem compact_squash (s : String) : compact (squash s) = compact s := by
  have hjoined : ∀ parts : List (List Char), ([' '].intercalate parts).filter (fun c => !isBlank c) =
      parts.flatten.filter fun c => !isBlank c := by
    intro parts
    induction parts with
    | nil => rfl
    | cons part rest ih =>
      by_cases hnil : rest = []
      · simp [hnil]
      · have hblank : isBlank ' ' = true := by decide
        rw [List.intercalate_cons_of_ne_nil hnil, List.filter_append, List.filter_append, ih]
        simp [hblank]
  have hwords : ((words s).map String.toList) = wordsOf s.toList := by simp [words]
  have hblank : " ".toList = [' '] := rfl
  rw [compact, compact, squash, String.toList_intercalate, hwords, hblank, hjoined, flatten_wordsOf, List.filter_filter]
  simp

end Compact

end TraitMock.Text
