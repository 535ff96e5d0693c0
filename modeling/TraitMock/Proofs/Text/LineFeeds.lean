import TraitMock.Proofs.Files.Slots

namespace TraitMock.Text

theorem splitLineFeeds_eq_splitAtChar (cs : List Char) : splitLineFeeds cs = splitAtChar '\n' cs := by
  induction cs with
  | nil => rfl
  | cons c cs ih => rw [splitLineFeeds, splitAtChar, ih]

theorem splitLineFeeds_append (cs rest : List Char) :
    splitLineFeeds (cs ++ '\n' :: rest) = splitLineFeeds cs ++ splitLineFeeds rest := by
  simp only [splitLineFeeds_eq_splitAtChar, splitAtChar_append]

theorem splitLineFeeds_of_not_mem {cs : List Char} (h : '\n' ∉ cs) : splitLineFeeds cs = [cs] := by
  rw [splitLineFeeds_eq_splitAtChar, splitAtChar_of_not_mem h]

theorem not_mem_of_mem_splitLineFeeds {cs part : List Char} (h : part ∈ splitLineFeeds cs) : '\n' ∉ part := by
  rw [splitLineFeeds_eq_splitAtChar] at h
  exact not_mem_of_mem_splitAtChar h

/-- What is written line by line has the lines of what is written, one after the other. -/
theorem splitLineFeeds_unlines {ls : List String} (hne : ls ≠ []) :
    splitLineFeeds (unlines ls).toList = ls.flatMap fun l => splitLineFeeds l.toList := by
  induction ls with
  | nil => exact absurd rfl hne
  | cons l ls ih =>
    by_cases hls : ls = []
    · simp [hls, unlines, String.intercalate_singleton]
    · have hjoined : (unlines (l :: ls)).toList = l.toList ++ '\n' :: (unlines ls).toList := by
        rw [unlines, String.intercalate_cons_of_ne_nil hls, String.toList_append, String.toList_append,
          List.append_assoc]
        rfl
      rw [hjoined, splitLineFeeds_append, ih hls, List.flatMap_cons]

/-- Texts without a line feed are the lines of what they are written to. -/
theorem flatMap_splitLineFeeds {ls : List String} (h : ∀ l ∈ ls, '\n' ∉ l.toList) :
    ls.flatMap (fun l => splitLineFeeds l.toList) = ls.map String.toList := by
  induction ls with
  | nil => rfl
  | cons l ls ih =>
    obtain ⟨hl, hls⟩ := List.forall_mem_cons.mp h
    rw [List.flatMap_cons, splitLineFeeds_of_not_mem hl, ih hls]
    rfl

private theorem mem_of_mem_dropReturn {line : List Char} {c : Char} (h : c ∈ dropReturn line) : c ∈ line := by
  unfold dropReturn at h
  split at h
  · exact (List.dropLast_sublist _).mem h
  · exact h

theorem not_mem_of_mem_lines {s line : String} (h : line ∈ lines s) : '\n' ∉ line.toList := by
  simp only [lines, linesOf, List.mem_map, List.mem_append] at h
  obtain ⟨part, hpart | hpart, rfl⟩ := h <;> rw [String.toList_ofList]
  · obtain ⟨full, hfull, rfl⟩ := hpart
    have hpart : full ∈ splitLineFeeds s.toList := (List.dropLast_sublist _).mem hfull
    exact fun hmem => not_mem_of_mem_splitLineFeeds hpart (mem_of_mem_dropReturn hmem)
  · split at hpart
    · exact absurd hpart List.not_mem_nil
    · -- the text behind the last line feed
      obtain rfl := List.mem_singleton.mp hpart
      cases hlast : (splitLineFeeds s.toList).getLast? with
      | none => simp
      | some last => exact not_mem_of_mem_splitLineFeeds (List.mem_of_getLast? hlast)

/-- A character takes one byte at least. -/
theorem length_le_utf8ByteSize (s : String) : s.length ≤ s.utf8ByteSize := by
  have hchars (cs : List Char) : cs.length ≤ (String.ofList cs).utf8ByteSize := by
    induction cs with
    | nil => simp
    | cons c cs ih =>
      have hc : 0 < c.utf8Size := c.utf8Size_pos
      rw [show String.ofList (c :: cs) = String.singleton c ++ String.ofList cs by
        rw [String.singleton_eq_ofList, ← String.ofList_append, List.singleton_append],
        String.utf8ByteSize_append, String.utf8ByteSize_singleton, List.length_cons]
      omega
  simpa [String.length_toList] using hchars s.toList

end TraitMock.Text
