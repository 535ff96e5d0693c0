import TraitMock.Text.Lines

namespace TraitMock.Text

/-- A text that has no colon, as the names of modules and items. -/
def IsName (s : String) : Prop := ':' ∉ s.toList

instance : DecidablePred IsName := fun s => inferInstanceAs (Decidable (':' ∉ s.toList))

theorem splitPath_ne_nil (cs : List Char) : splitPath cs ≠ [] := by
  fun_induction splitPath cs with
  | case1 | case2 | case3 => simp
  | case4 c d rest _ ih => cases splitPath (d :: rest) <;> simp [consFirst]

theorem splitPath_cons {c d : Char} {rest : List Char} (h : ¬(c = ':' ∧ d = ':')) :
    splitPath (c :: d :: rest) = consFirst c (splitPath (d :: rest)) := by
  rw [splitPath, if_neg h]

theorem splitPath_of_not_mem {cs : List Char} (h : ':' ∉ cs) : splitPath cs = [cs] := by
  fun_induction splitPath cs with
  | case1 | case2 => rfl
  | case3 c d rest hcolons => simp [hcolons.1] at h
  | case4 c d rest _ ih =>
    have hrest : ':' ∉ d :: rest := fun hmem => h (List.mem_cons_of_mem c hmem)
    rw [ih hrest, consFirst]

theorem splitPath_append {cs : List Char} (h : ':' ∉ cs) (rest : List Char) :
    splitPath (cs ++ ':' :: ':' :: rest) = cs :: splitPath rest := by
  induction cs with
  | nil => simp [splitPath]
  | cons c cs ih =>
    have hc : c ≠ ':' := fun heq => h (heq ▸ List.mem_cons_self)
    have htail := ih fun hmem => h (List.mem_cons_of_mem c hmem)
    cases cs with
    | nil =>
      rw [List.nil_append] at htail
      rw [List.cons_append, List.nil_append, splitPath_cons (by simp [hc]), htail, consFirst]
    | cons d cs =>
      rw [List.cons_append, List.cons_append, splitPath_cons (by simp [hc])]
      rw [List.cons_append] at htail
      rw [htail, consFirst]

theorem joinPath_cons {first : String} {rest : List String} (h : rest ≠ []) :
    joinPath (first :: rest) = first ++ "::" ++ joinPath rest :=
  String.intercalate_cons_of_ne_nil h

theorem joinPath_append {front back : List String} (hfront : front ≠ []) (hback : back ≠ []) :
    joinPath (front ++ back) = joinPath front ++ "::" ++ joinPath back :=
  String.intercalate_append_of_ne_nil hfront hback

theorem segments_ne_nil (s : String) : segments s ≠ [] := by
  simp [segments, splitPath_ne_nil]

theorem segments_of_isName {s : String} (h : IsName s) : segments s = [s] := by
  rw [segments, splitPath_of_not_mem h]
  simp

theorem segments_append {first : String} (h : IsName first) (rest : String) :
    segments (first ++ "::" ++ rest) = first :: segments rest := by
  have hsplit := splitPath_append h rest.toList
  rw [segments, segments]
  simp [hsplit]

theorem segments_joinPath {segs : List String} (hne : segs ≠ []) (hnames : ∀ seg ∈ segs, IsName seg) :
    segments (joinPath segs) = segs := by
  induction segs with
  | nil => exact absurd rfl hne
  | cons first rest ih =>
    have hfirst := hnames first List.mem_cons_self
    cases rest with
    | nil => exact segments_of_isName hfirst
    | cons second rest =>
      have htail := ih (by simp) fun seg hseg => hnames seg (List.mem_cons_of_mem first hseg)
      rw [joinPath_cons (by simp), segments_append hfirst, htail]

theorem segments_joinPath_cons {first : String} {rest : List String} (hfirst : IsName first)
    (hrest : ∀ seg ∈ rest, IsName seg) : segments (joinPath (first :: rest)) = first :: rest := by
  refine segments_joinPath (by simp) fun seg hseg => ?_
  rcases List.mem_cons.mp hseg with rfl | hmem
  · exact hfirst
  · exact hrest seg hmem

/-- Cutting a path loses nothing. -/
theorem toList_joinPath_segments (cs : List Char) :
    [':', ':'].intercalate (splitPath cs) = cs := by
  fun_induction splitPath cs with
  | case1 | case2 => rfl
  | case3 c d rest hcolons ih =>
    obtain ⟨rfl, rfl⟩ := hcolons
    obtain ⟨part, parts, hparts⟩ := List.exists_cons_of_ne_nil (splitPath_ne_nil rest)
    rw [hparts] at ih ⊢
    rw [List.intercalate_cons_cons, ih]
    rfl
  | case4 c d rest _ ih =>
    obtain ⟨part, parts, hparts⟩ := List.exists_cons_of_ne_nil (splitPath_ne_nil (d :: rest))
    rw [hparts] at ih ⊢
    cases parts with
    | nil => simpa [consFirst] using ih
    | cons next parts =>
      rw [List.intercalate_cons_cons] at ih
      rw [consFirst, List.intercalate_cons_cons, List.cons_append, List.cons_append, ih]

theorem joinPath_segments (s : String) : joinPath (segments s) = s := by
  apply String.toList_injective
  rw [joinPath, String.toList_intercalate, segments, List.map_map]
  have hlist : (splitPath s.toList).map (String.toList ∘ String.ofList) = splitPath s.toList := by
    simp
  rw [hlist]
  exact toList_joinPath_segments s.toList

/-- The last segment of a path, whose double colons are taken from the right. -/
theorem lastSegment_joinPath (segs : List String) {last : String} (hlast : IsName last) :
    lastSegment (joinPath (segs ++ [last])) = last := by
  have hreverse : ':' ∉ last.toList.reverse := fun hmem => hlast (List.mem_reverse.mp hmem)
  by_cases hsegs : segs = []
  · subst hsegs
    simp [lastSegment, joinPath, splitPath_of_not_mem hreverse]
  · have hback : (joinPath (segs ++ [last])).toList.reverse =
        last.toList.reverse ++ ':' :: ':' :: (joinPath segs).toList.reverse := by
      rw [joinPath_append hsegs (by simp)]
      simp [joinPath]
    rw [lastSegment, hback, splitPath_append hreverse]
    simp

theorem lastSegment_eq_of_segments {s last : String} {front : List String} (h : segments s = front ++ [last])
    (hlast : IsName last) : lastSegment s = last := by
  rw [← joinPath_segments s, h]
  exact lastSegment_joinPath front hlast

end TraitMock.Text
