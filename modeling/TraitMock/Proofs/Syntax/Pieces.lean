import TraitMock.Proofs.Syntax.Lexemes
import Mathlib.Data.List.Find
import Mathlib.Data.List.Infix

namespace TraitMock.Syntax

section Marks

/-- Marks that go on with what may stand behind them. -/
def openMarks : List (List Char) := [['.'], ['.', '.'], [':'], ['-'], ['=']]

private theorem isPrefixOf_append {cs x : List Char} (hx : x ∈ longMarks) (hne : cs ≠ []) (hcs : cs ∉ openMarks)
    (more : List Char) : x.isPrefixOf (cs ++ more) = x.isPrefixOf cs := by
  have hopen : ∀ x ∈ longMarks, ∀ p ∈ x.inits, p ≠ [] → p ∉ openMarks → p = x := by decide
  rw [Bool.eq_iff_iff, List.isPrefixOf_iff_prefix, List.isPrefixOf_iff_prefix]
  refine ⟨fun hpre => ?_, fun hpre => hpre.trans (List.prefix_append cs more)⟩
  rcases List.prefix_or_prefix_of_prefix hpre (List.prefix_append cs more) with hshort | hlong
  · exact hshort
  · rw [hopen x hx cs ((List.mem_inits cs x).mpr hlong) hne hcs]

private theorem readMark_append {cs m rest : List Char} (h : readMark cs = some (m, rest)) (hopen : rest ≠ [] ∨ m ∉ openMarks)
    (more : List Char) : readMark (cs ++ more) = some (m, rest ++ more) := by
  have hne : cs ≠ [] := by
    rintro rfl
    cases (show readMark [] = none by decide).symm.trans h
  have hcs : cs ∉ openMarks := by
    intro hmem
    have hself : ∀ p ∈ openMarks, readMark p = some (p, []) := by decide
    rw [hself cs hmem] at h
    obtain ⟨rfl, rfl⟩ := Prod.mk.inj (Option.some.inj h)
    simp [hmem] at hopen
  have hfind : longMarks.find? (·.isPrefixOf (cs ++ more)) = longMarks.find? (·.isPrefixOf cs) :=
    List.find?_congr fun x hx => isPrefixOf_append hx hne hcs more
  unfold readMark at h ⊢
  rw [hfind]
  cases hlong : longMarks.find? (·.isPrefixOf cs) with
  | some x =>
    rw [hlong] at h
    obtain ⟨rfl, rfl⟩ := Prod.mk.inj (Option.some.inj h)
    have hpre : x <+: cs := by simpa using List.find?_some hlong
    simp only [Option.some.injEq, Prod.mk.injEq, true_and]
    exact List.drop_append_of_le_length hpre.length_le
  | none =>
    rw [hlong] at h
    cases cs with
    | nil => cases h
    | cons c cs =>
      simp only [List.cons_append] at h ⊢
      split at h
      · rename_i hc
        obtain ⟨rfl, rfl⟩ := Prod.mk.inj (Option.some.inj h)
        rw [if_pos hc]
      · cases h

/-- A mark begins with a character that begins no other token. -/
theorem readMark_eq {cs m rest : List Char} (h : readMark cs = some (m, rest)) :
    cs = m ++ rest ∧ ∃ c ∈ m.head?, c ∈ marks := by
  have hlong : longMarks.all (fun x => x.head?.any marks.contains) = true := by decide
  have hfirst : ∀ x ∈ longMarks, ∃ c ∈ x.head?, c ∈ marks := by simpa [Option.any_eq_true] using hlong
  unfold readMark at h
  cases hlong : longMarks.find? (·.isPrefixOf cs) with
  | some x =>
    rw [hlong] at h
    obtain ⟨rfl, rfl⟩ := Prod.mk.inj (Option.some.inj h)
    have hpre : x <+: cs := by simpa using List.find?_some hlong
    obtain ⟨after, rfl⟩ := hpre
    rw [List.drop_left]
    exact ⟨rfl, hfirst x (List.mem_of_find?_eq_some hlong)⟩
  | none =>
    rw [hlong] at h
    cases cs with
    | nil => cases h
    | cons c cs =>
      dsimp only at h
      split at h
      · rename_i hc
        obtain ⟨rfl, rfl⟩ := Prod.mk.inj (Option.some.inj h)
        exact ⟨rfl, c, rfl, by simpa using hc⟩
      · cases h

theorem readToken_mark {cs m rest : List Char} (h : readMark cs = some (m, rest)) :
    readToken cs = some (.mark, m, rest) := by
  obtain ⟨rfl, c, hhead, hc⟩ := readMark_eq h
  obtain ⟨m, rfl⟩ := List.head?_eq_some_iff.mp hhead
  have hall : marks.all (fun d => d != '"' && d != '\'' && d != 'b' && d != 'c' && d != 'r' &&
      !Text.isNameStart d && !d.isDigit) = true := by decide
  have hplain : (((((c ≠ '"' ∧ c ≠ '\'') ∧ c ≠ 'b') ∧ c ≠ 'c') ∧ c ≠ 'r') ∧ Text.isNameStart c = false) ∧
      c.isDigit = false := by
    simpa using List.all_eq_true.mp hall c hc
  obtain ⟨⟨⟨⟨⟨⟨hquote, htick⟩, hb⟩, hcc⟩, hr⟩, hstart⟩, hdigit⟩ := hplain
  have hmarks : quoteMarks.findSome? (fun x => readMarked (c :: (m ++ rest)) x.1 x.2) = none := by
    simp [quoteMarks, readMarked, hb.symm, hcc.symm, hr.symm]
  rw [List.cons_append] at h ⊢
  unfold readToken
  rw [hmarks]
  dsimp only
  split <;> simp_all

end Marks

/-- The first token of a text that does not begin with a gap, if it is a mark, a name or a lifetime. -/
def pieceToken : List Char → Option (Shape × List Char)
  | [] => none
  | '\'' :: rest =>
    let (w, after) := readName rest
    if IsPlain w ∧ separates after then some (⟨.lifetime, String.ofList ('\'' :: w), false⟩, after) else none
  | c :: rest =>
    if Text.isNameStart c then
      let (w, after) := readName (c :: rest)
      if IsPlain w ∧ separates after then some (.word (String.ofList w), after) else none
    else if c = '/' then none
    else
      match readMark (c :: rest) with
      | some (m, after) => if after ≠ [] ∨ m ∉ openMarks then some (.mark (String.ofList m), after) else none
      | none => none

/-- The tokens of a text, at most `n`. -/
def piece : Nat → List Char → Option (List Shape)
  | 0, _ => none
  | _ + 1, [] => some []
  | n + 1, c :: rest =>
    if isSpace c then piece n rest
    else
      match pieceToken (c :: rest) with
      | some (s, after) => (piece n after).map (s :: ·)
      | none => none

/-- Whether a name may stand behind a text. -/
def endsName (cs : List Char) : Bool := cs.getLast?.any Text.isNameContinue

theorem readName_eq {cs w after : List Char} (h : readName cs = (w, after)) : cs = w ++ after := by
  obtain ⟨rfl, rfl⟩ := Prod.mk.inj h
  exact List.takeWhile_append_dropWhile.symm

/-- What the first token of a text says of the text in front of another one. -/
structure IsFirst (cs : List Char) (s : Shape) (rest : List Char) : Prop where
  loose : s.glued = false
  eq_append : cs = s.text.toList ++ rest
  head : ∃ c, s.text.toList.head? = some c ∧ isSpace c = false ∧ c ≠ '/'
  reads : ∀ more, rest ≠ [] ∨ separates more = true ∨ endsName cs = false →
    readToken (cs ++ more) = some (s.kind, s.text.toList, rest ++ more)

theorem endsName_of_append (front : List Char) {after : List Char} (h : endsName (front ++ after) = false) :
    endsName after = false := by
  cases after with
  | nil => rfl
  | cons c after =>
    rw [endsName, List.getLast?_append_of_ne_nil _ (by simp)] at h
    exact h

private theorem endsName_append {front w : List Char} (hw : IsPlain w) : endsName (front ++ w) = true := by
  obtain ⟨⟨c, hc, _⟩, hall⟩ := hw
  have hne : w ≠ [] := by
    rintro rfl
    cases hc
  rw [endsName, List.getLast?_append_of_ne_nil _ hne, List.getLast?_eq_some_getLast hne, Option.any_some]
  exact hall _ (List.getLast_mem hne)

/-- What stands behind a name does not run into it if a name may not stand there. -/
theorem separates_behind (front : List Char) {w after more : List Char} (hw : IsPlain w) (hafter : separates after = true)
    (h : after ≠ [] ∨ separates more = true ∨ endsName (front ++ w ++ after) = false) :
    separates (after ++ more) = true := by
  by_cases hnil : after = []
  · subst hnil
    rcases h with h | h | h
    · exact absurd rfl h
    · exact h
    · rw [List.append_nil, endsName_append hw] at h
      cases h
  · exact separates_append hafter hnil more

private theorem isFirst_word {w after : List Char} (hw : IsPlain w) (hafter : separates after = true) :
    IsFirst (w ++ after) (.word (String.ofList w)) after := by
  refine ⟨rfl, by simp [Shape.word], by simpa [Shape.word] using isPlain_head hw, fun more hmore => ?_⟩
  rw [List.append_assoc, Shape.word, String.toList_ofList]
  exact readToken_plain hw (separates_behind [] hw hafter hmore)

private theorem isFirst_lifetime {w after : List Char} (hw : IsPlain w) (hafter : separates after = true) :
    IsFirst ('\'' :: w ++ after) ⟨.lifetime, String.ofList ('\'' :: w), false⟩ after := by
  refine ⟨rfl, by simp, ⟨'\'', by simp, by decide⟩, fun more hmore => ?_⟩
  rw [List.append_assoc, String.toList_ofList]
  exact readToken_lifetime hw (separates_behind ['\''] hw hafter hmore)

private theorem isFirst_mark {cs m after : List Char} (h : readMark cs = some (m, after)) (hslash : cs.head? ≠ some '/')
    (hopen : after ≠ [] ∨ m ∉ openMarks) : IsFirst cs (.mark (String.ofList m)) after := by
  obtain ⟨rfl, c, hhead, hc⟩ := readMark_eq h
  obtain ⟨m, rfl⟩ := List.head?_eq_some_iff.mp hhead
  have hall : marks.all (!isSpace ·) = true := by decide
  have hblank : ∀ d ∈ marks, isSpace d = false := by simpa using hall
  have hne : c ≠ '/' := fun heq => hslash (by simp [heq])
  refine ⟨rfl, by simp [Shape.mark], ⟨c, by simp [Shape.mark], hblank c hc, hne⟩, fun more _ => ?_⟩
  rw [Shape.mark, String.toList_ofList]
  exact readToken_mark (readMark_append h hopen more)

private theorem isFirst_of_pieceToken {cs rest : List Char} {s : Shape} (h : pieceToken cs = some (s, rest)) :
    IsFirst cs s rest := by
  unfold pieceToken at h
  split at h
  · cases h
  · rename_i tail
    cases hname : readName tail with
    | mk w after =>
      rw [hname] at h
      obtain ⟨hw, heq⟩ := Option.ite_none_right_eq_some.mp h
      obtain ⟨rfl, rfl⟩ := Prod.mk.inj (Option.some.inj heq)
      obtain rfl := readName_eq hname
      exact isFirst_lifetime hw.1 hw.2
  · rename_i c tail _
    split at h
    · cases hname : readName (c :: tail) with
      | mk w after =>
        rw [hname] at h
        obtain ⟨hw, heq⟩ := Option.ite_none_right_eq_some.mp h
        obtain ⟨rfl, rfl⟩ := Prod.mk.inj (Option.some.inj heq)
        rw [readName_eq hname]
        exact isFirst_word hw.1 hw.2
    · obtain ⟨hslash, h⟩ := Option.ite_none_left_eq_some.mp h
      split at h
      · rename_i m after hmark
        obtain ⟨hopen, heq⟩ := Option.ite_none_right_eq_some.mp h
        obtain ⟨rfl, rfl⟩ := Prod.mk.inj (Option.some.inj heq)
        exact isFirst_mark hmark (by simpa using hslash) hopen
      · cases h

theorem reads_of_piece {n : Nat} {cs : List Char} {ss : List Shape} (h : piece n cs = some ss) :
    ss.length ≤ cs.length ∧ (∀ s ∈ ss.head?, s.glued = false) ∧
      ∀ more, separates more = true ∨ endsName cs = false →
        ∃ ts g, Fit ts ss ∧ IsGap g ∧ Reads (cs ++ more) ts (g ++ more) := by
  induction n generalizing cs ss with
  | zero => cases h
  | succ n ih =>
    cases cs with
    | nil =>
      obtain rfl := Option.some.inj h
      exact ⟨Nat.le_refl _, by simp, fun more _ => ⟨[], [], fit_nil.mpr rfl, isGap_nil, .done more⟩⟩
    | cons c rest =>
      rw [piece] at h
      split at h
      · rename_i hblank
        obtain ⟨hlength, hloose, hreads⟩ := ih h
        refine ⟨Nat.le_succ_of_le hlength, hloose, fun more hmore => ?_⟩
        obtain ⟨ts, g, hfit, hgap, hreads⟩ := hreads more (hmore.imp_right (endsName_of_append [c]))
        obtain ⟨us, k, hfit, hk, hreads⟩ := hreads.behind_gap hfit hloose (isGap_blank hblank) hgap
        exact ⟨us, k, hfit, hk, hreads⟩
      · split at h
        · rename_i s after hfirst
          obtain ⟨us, hus, rfl⟩ := Option.map_eq_some_iff.mp h
          obtain ⟨hlength, _, hreads⟩ := ih hus
          have hfirst := isFirst_of_pieceToken hfirst
          obtain ⟨d, hd, hblank, hslash⟩ := hfirst.head
          obtain ⟨text, htext⟩ := List.head?_eq_some_iff.mp hd
          have hcs := hfirst.eq_append
          refine ⟨?_, by simp [hfirst.loose], fun more hmore => ?_⟩
          · rw [hcs, htext]
            simp only [List.length_append, List.length_cons]
            omega
          · have hends : endsName (c :: rest) = false → endsName after = false := fun h =>
              endsName_of_append _ (hcs ▸ h)
            obtain ⟨ts, g, hfit, hgap, hreads⟩ := hreads more (hmore.imp_right hends)
            have hbetween : readGap .between (c :: rest ++ more) = some ⟨[], false, c :: rest ++ more⟩ := by
              rw [hcs, htext, List.cons_append, List.cons_append, readGap_cons hslash, hblank]
              rfl
            have htoken := hfirst.reads more (.inr hmore)
            refine ⟨_, g, fit_cons.mpr ⟨_, ts, ?_, hfit, rfl⟩, hgap, .token hbetween (by simp) htoken hreads⟩
            exact ⟨rfl, String.ofList_toList, by simp⟩
        · cases h

/-- A fixed text spells the tokens that are found in it. -/
theorem spells_piece {cs : List Char} {ss : List Shape} (h : piece (cs.length + 1) cs = some ss) :
    Spells (String.ofList cs) ss := by
  obtain ⟨hlength, hloose, hreads⟩ := reads_of_piece h
  refine ⟨?_, hloose, fun more hmore => ?_⟩
  · rwa [String.toList_ofList]
  · rw [String.toList_ofList]
    exact hreads more (.inl hmore)

/-- A fixed text that ends with no name spells its tokens whatever stands behind it. -/
theorem closes_piece {cs : List Char} {ss : List Shape} (h : piece (cs.length + 1) cs = some ss)
    (hends : endsName cs = false) : Closes (String.ofList cs) ss := by
  obtain ⟨hlength, hloose, hreads⟩ := reads_of_piece h
  refine ⟨?_, hloose, fun more _ => ?_⟩
  · rwa [String.toList_ofList]
  · rw [String.toList_ofList]
    exact hreads more (.inr hends)

end TraitMock.Syntax
