import TraitMock.Files.Path

namespace TraitMock

namespace Text

theorem splitAtChar_ne_nil (sep : Char) (cs : List Char) : splitAtChar sep cs ≠ [] := by
  cases cs with
  | nil => simp [splitAtChar]
  | cons c rest =>
    rw [splitAtChar]
    split
    · simp
    · cases splitAtChar sep rest <;> simp [consFirst]

theorem splitAtChar_append (sep : Char) (cs rest : List Char) :
    splitAtChar sep (cs ++ sep :: rest) = splitAtChar sep cs ++ splitAtChar sep rest := by
  induction cs with
  | nil => simp [splitAtChar]
  | cons c cs ih =>
    rw [List.cons_append, splitAtChar, splitAtChar, ih]
    split
    · rfl
    · obtain ⟨part, parts, hparts⟩ := List.exists_cons_of_ne_nil (splitAtChar_ne_nil sep cs)
      rw [hparts, List.cons_append, consFirst, consFirst, List.cons_append]

theorem splitAtChar_of_not_mem {sep : Char} {cs : List Char} (h : sep ∉ cs) : splitAtChar sep cs = [cs] := by
  induction cs with
  | nil => rfl
  | cons c cs ih =>
    have hc : c ≠ sep := fun heq => h (heq ▸ List.mem_cons_self)
    rw [splitAtChar, if_neg hc, ih fun hmem => h (List.mem_cons_of_mem c hmem), consFirst]

theorem not_mem_of_mem_splitAtChar {sep : Char} {cs part : List Char} (h : part ∈ splitAtChar sep cs) :
    sep ∉ part := by
  induction cs generalizing part with
  | nil =>
    rw [splitAtChar, List.mem_singleton] at h
    simp [h]
  | cons c cs ih =>
    rw [splitAtChar] at h
    split at h
    · rcases List.mem_cons.mp h with rfl | h
      · exact List.not_mem_nil
      · exact ih h
    · rename_i hc
      obtain ⟨first, parts, hparts⟩ := List.exists_cons_of_ne_nil (splitAtChar_ne_nil sep cs)
      rw [hparts, consFirst] at h
      rw [hparts] at ih
      rcases List.mem_cons.mp h with rfl | h
      · intro hmem
        rcases List.mem_cons.mp hmem with heq | hmem
        · exact hc heq.symm
        · exact ih List.mem_cons_self hmem
      · exact ih (List.mem_cons_of_mem first h)

end Text

namespace Path

/-- A text without a slash. -/
def IsSlot (s : String) : Prop := '/' ∉ s.toList

/-- The name of a file or directory: a slot that leads to what it names. -/
structure IsEntryName (s : String) : Prop where
  slot : IsSlot s
  not_idle : isIdle s = false
  not_up : s ≠ ".."

theorem IsEntryName.ne_empty {s : String} (h : IsEntryName s) : s ≠ "" := by
  rintro rfl
  exact absurd h.not_idle (by decide)

theorem IsEntryName.beginsWith_eq {s : String} (h : IsEntryName s) : Text.beginsWith s "/" = false := by
  rw [Text.beginsWith]
  rcases hcs : s.toList with _ | ⟨c, cs⟩
  · rfl
  · have hc : '/' ≠ c := fun heq => h.slot (hcs ▸ heq ▸ List.mem_cons_self)
    simp [List.isPrefixOf, hc]

theorem slots_ne_nil (p : Path) : p.slots ≠ [] := by simp [slots, Text.splitAtChar_ne_nil]

theorem isSlot_of_mem_slots {p : Path} {s : String} (h : s ∈ p.slots) : IsSlot s := by
  rw [slots, List.mem_map] at h
  obtain ⟨part, hpart, rfl⟩ := h
  simpa [IsSlot] using Text.not_mem_of_mem_splitAtChar hpart

theorem slots_of_isSlot {s : String} (h : IsSlot s) : slots ⟨s⟩ = [s] := by
  rw [slots, Text.splitAtChar_of_not_mem h]
  simp

theorem slots_append (front back : String) : slots ⟨front ++ "/" ++ back⟩ = slots ⟨front⟩ ++ slots ⟨back⟩ := by
  have hsplit := Text.splitAtChar_append '/' front.toList back.toList
  simp only [slots, String.toList_append]
  rw [show front.toList ++ "/".toList ++ back.toList = front.toList ++ '/' :: back.toList by simp, hsplit,
    List.map_append]

private theorem slots_intercalate {l : List String} (hne : l ≠ []) (h : ∀ s ∈ l, IsSlot s) :
    slots ⟨"/".intercalate l⟩ = l := by
  induction l with
  | nil => exact absurd rfl hne
  | cons s rest ih =>
    have hs := h s List.mem_cons_self
    cases rest with
    | nil => exact slots_of_isSlot hs
    | cons t rest =>
      have hrest := ih (by simp) fun u hu => h u (List.mem_cons_of_mem s hu)
      rw [String.intercalate_cons_of_ne_nil (by simp), slots_append, slots_of_isSlot hs, hrest]
      rfl

theorem slots_ofSlots {l : List String} (hne : l ≠ []) (hroot : l ≠ [""]) (h : ∀ s ∈ l, IsSlot s) :
    (ofSlots l).slots = l := by
  rw [ofSlots, if_neg hroot, slots_intercalate hne h]

/-- An absolute path has an empty slot in front. -/
theorem isAbsolute_iff {p : Path} : p.isAbsolute = true ↔ ∃ rest, rest ≠ [] ∧ p.slots = "" :: rest := by
  rw [isAbsolute, Text.beginsWith, slots]
  rcases p.text.toList with _ | ⟨c, cs⟩
  · simp [Text.splitAtChar]
  · obtain ⟨first, parts, hparts⟩ := List.exists_cons_of_ne_nil (Text.splitAtChar_ne_nil '/' cs)
    by_cases hc : c = '/'
    · subst hc
      simp [Text.splitAtChar, hparts]
    · have hc' : '/' ≠ c := fun heq => hc heq.symm
      simp [Text.splitAtChar, hc, hc', hparts, Text.consFirst, ← String.toList_inj]

theorem isAbsolute_join {dir : Path} {name : String} (hname : IsEntryName name) :
    (dir.join name).isAbsolute = dir.isAbsolute := by
  by_cases htext : dir.text = ""
  · rw [join, if_pos (by simp [htext]), isAbsolute, isAbsolute, hname.beginsWith_eq, htext]
    rfl
  · rw [join, if_neg (by simp [hname.beginsWith_eq, htext])]
    obtain ⟨c, cs, hcs⟩ := List.exists_cons_of_ne_nil fun h => htext (String.toList_eq_nil_iff.mp h)
    split <;> simp [isAbsolute, Text.beginsWith, hcs, List.isPrefixOf]

theorem slots_join {dir : Path} {name : String} (hname : IsEntryName name) (hdir : dir.isAbsolute = true) :
    (dir.join name).slots = dir.slots ++ [name] ∨
      ∃ rest, dir.slots = rest ++ [""] ∧ rest ≠ [] ∧ (dir.join name).slots = rest ++ [name] := by
  have htext : dir.text ≠ "" := by
    intro htext
    simp [isAbsolute, Text.beginsWith, htext] at hdir
  rw [join, if_neg (by simp [hname.beginsWith_eq, htext])]
  split
  · rename_i hlast
    obtain ⟨front, hfront⟩ : ∃ front, dir.text.toList = front ++ ['/'] := List.getLast?_eq_some_iff.mp hlast
    have hdirText : dir.text = String.ofList front ++ "/" ++ "" := String.toList_inj.mp (by simp [hfront])
    have hjoinText : dir.text ++ name = String.ofList front ++ "/" ++ name :=
      String.toList_inj.mp (by simp [hfront])
    refine .inr ⟨slots ⟨String.ofList front⟩, ?_, slots_ne_nil _, ?_⟩
    · rw [show dir = ⟨String.ofList front ++ "/" ++ ""⟩ from congrArg Path.mk hdirText, slots_append]
      rfl
    · rw [hjoinText, slots_append, slots_of_isSlot hname.slot]
  · refine .inl ?_
    rw [slots_append, slots_of_isSlot hname.slot]

end Path

end TraitMock
