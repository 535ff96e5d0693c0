import TraitMock.Proofs.Syntax.Running

namespace TraitMock.Syntax

/-- The marks that close a group. -/
def closers : List String := [")", "]", "\x7d"]

/-- The marks that open or close a group. -/
def brackets : List String := ["(", "[", "\x7b"] ++ closers

/-- A shape that is no bracket. -/
def Shape.IsInner (s : Shape) : Prop := ¬(s.kind = .mark ∧ s.text ∈ brackets)

instance : DecidablePred Shape.IsInner := fun _ => inferInstanceAs (Decidable (¬_))

/-- A shape that is no bracket and no colon. -/
def Shape.IsFlat (s : Shape) : Prop := ¬(s.kind = .mark ∧ s.text ∈ ":" :: brackets)

/-- Shapes of which the brackets match. -/
inductive Balanced : List Shape → Prop
  | nil : Balanced []
  | cons {s : Shape} {ss : List Shape} (hs : s.IsInner) (hss : Balanced ss) : Balanced (s :: ss)
  | group {o c : String} {inner ss : List Shape} (hclose : Reader.closing? o = some c) (hinner : Balanced inner)
      (hss : Balanced ss) : Balanced (.mark o :: (inner ++ .mark c :: ss))

/-- Shapes of which the brackets match, and which have no colon outside of them in front of the first angle bracket. -/
inductive Flat : List Shape → Prop
  | nil : Flat []
  | angle {ss : List Shape} (hss : Balanced ss) : Flat (.mark "<" :: ss)
  | cons {s : Shape} {ss : List Shape} (hs : s.IsFlat) (hss : Flat ss) : Flat (s :: ss)
  | group {o c : String} {inner ss : List Shape} (hclose : Reader.closing? o = some c) (hinner : Balanced inner)
      (hss : Flat ss) : Flat (.mark o :: (inner ++ .mark c :: ss))

theorem Shape.IsFlat.isInner {s : Shape} (h : s.IsFlat) : s.IsInner :=
  fun hs => h ⟨hs.1, List.mem_cons_of_mem _ hs.2⟩

theorem Balanced.append {ss us : List Shape} (hss : Balanced ss) (hus : Balanced us) : Balanced (ss ++ us) := by
  induction hss with
  | nil => exact hus
  | cons hs _ ih => exact .cons hs ih
  | group hclose hinner _ _ ih =>
    rw [List.cons_append, List.append_assoc, List.cons_append]
    exact .group hclose hinner ih

theorem Flat.balanced {ss : List Shape} (h : Flat ss) : Balanced ss := by
  induction h with
  | nil => exact .nil
  | angle hss => exact .cons (fun hs => absurd hs.2 (by decide)) hss
  | cons hs _ ih => exact .cons hs.isInner ih
  | group hclose hinner _ ih => exact .group hclose hinner ih

theorem Flat.append {ss us : List Shape} (hss : Flat ss) (hus : Flat us) : Flat (ss ++ us) := by
  induction hss with
  | nil => exact hus
  | angle hss => exact .angle (hss.append hus.balanced)
  | cons hs _ ih => exact .cons hs ih
  | group hclose hinner _ ih =>
    rw [List.cons_append, List.append_assoc, List.cons_append]
    exact .group hclose hinner ih

theorem balanced_of_forall {ss : List Shape} (h : ∀ s ∈ ss, s.IsInner) : Balanced ss := by
  induction ss with
  | nil => exact .nil
  | cons s ss ih => exact .cons (h s (by simp)) (ih fun u hu => h u (by simp [hu]))

theorem flat_of_forall {ss : List Shape} (h : ∀ s ∈ ss, s.IsFlat) : Flat ss := by
  induction ss with
  | nil => exact .nil
  | cons s ss ih => exact .cons (h s (by simp)) (ih fun u hu => h u (by simp [hu]))

theorem balanced_separatedBy {items : List (List Shape)} (h : ∀ ss ∈ items, Balanced ss) {sep : Shape}
    (hsep : sep.IsInner) : Balanced (Reader.separatedBy sep items) := by
  cases items with
  | nil => exact .nil
  | cons ss items =>
    obtain ⟨hfirst, hitems⟩ := List.forall_mem_cons.mp h
    refine hfirst.append ?_
    clear h
    induction items with
    | nil => exact .nil
    | cons us items ih =>
      obtain ⟨hus, hitems⟩ := List.forall_mem_cons.mp hitems
      exact (Balanced.cons hsep hus).append (ih hitems)

theorem flat_separatedBy {items : List (List Shape)} (h : ∀ ss ∈ items, Flat ss) {sep : Shape} (hsep : sep.IsFlat) :
    Flat (Reader.separatedBy sep items) := by
  cases items with
  | nil => exact .nil
  | cons ss items =>
    obtain ⟨hfirst, hitems⟩ := List.forall_mem_cons.mp h
    refine hfirst.append ?_
    clear h
    induction items with
    | nil => exact .nil
    | cons us items ih =>
      obtain ⟨hus, hitems⟩ := List.forall_mem_cons.mp hitems
      exact (Flat.cons hsep hus).append (ih hitems)

namespace Reader

section Groups

theorem closing?_cases {o c : String} (h : closing? o = some c) :
    o = "(" ∧ c = ")" ∨ o = "[" ∧ c = "]" ∨ o = "\x7b" ∧ c = "\x7d" := by
  unfold closing? at h
  split at h <;> simp_all

theorem isNone_closing? {m : String} (h : m ∉ brackets) : closing? m = none := by
  unfold closing?
  split
  · exact absurd (by decide) h
  · exact absurd (by decide) h
  · exact absurd (by decide) h
  · rfl

theorem closing?_mem {o c : String} (h : closing? o = some c) : c ∈ closers := by
  rcases closing?_cases h with ⟨rfl, rfl⟩ | ⟨rfl, rfl⟩ | ⟨rfl, rfl⟩ <;> decide

theorem closeGroups_close {c gap : String} {outer : List String} {commented : Bool} (rest : List Token) :
    closeGroups (c :: outer) (⟨.mark, c, gap, commented⟩ :: rest) = closeGroups outer rest := by
  simp [closeGroups]

section

variable {close : String} {outer : List String} (hclose : close ∈ closers)

include hclose

private theorem closeGroups_inner {t : Token} (ht : ¬(t.kind = .mark ∧ t.text ∈ brackets)) (rest : List Token) :
    closeGroups (close :: outer) (t :: rest) = closeGroups (close :: outer) rest := by
  rw [closeGroups]
  by_cases hkind : t.kind = .mark
  · have htext : t.text ∉ brackets := fun h => ht ⟨hkind, h⟩
    have hne : t.text ≠ close := fun h => htext (List.mem_append_right _ (h ▸ hclose))
    have hnone := isNone_closing? htext
    simp [brackets, closers] at htext
    simp [hkind, hne, hnone, htext]
  · simp [hkind]

private theorem closeGroups_open {o c : String} (h : closing? o = some c) {gap : String} {commented : Bool}
    (rest : List Token) :
    closeGroups (close :: outer) (⟨.mark, o, gap, commented⟩ :: rest) = closeGroups (c :: close :: outer) rest := by
  have hne : ∀ c ∈ closers, c ≠ "(" ∧ c ≠ "[" ∧ c ≠ "\x7b" := by decide
  obtain ⟨hparen, hsquare, hcurly⟩ := hne close hclose
  rw [closeGroups]
  rcases closing?_cases h with ⟨rfl, rfl⟩ | ⟨rfl, rfl⟩ | ⟨rfl, rfl⟩
  · simp [hparen.symm, h]
  · simp [hsquare.symm, h]
  · simp [hcurly.symm, h]

private theorem closeGroups_balanced {ts rest : List Token} {ss : List Shape} (h : Balanced ss) (hfit : Fit ts ss) :
    closeGroups (close :: outer) (ts ++ rest) = closeGroups (close :: outer) rest := by
  induction h generalizing close outer ts rest with
  | nil => rw [fit_nil.mp hfit, List.nil_append]
  | cons hs _ ih =>
    obtain ⟨t, ts, ⟨hkind, htext, _⟩, hts, rfl⟩ := fit_cons.mp hfit
    rw [List.cons_append, closeGroups_inner hclose (by rwa [hkind, htext])]
    exact ih hclose hts
  | group hpair _ _ ihinner ih =>
    obtain ⟨gap, commented, ts, rfl, hts⟩ := fit_mark.mp hfit
    obtain ⟨inner, back, hinner, hback, rfl⟩ := fit_append.mp hts
    obtain ⟨gap', commented', us, rfl, hus⟩ := fit_mark.mp hback
    rw [List.cons_append, closeGroups_open hclose hpair, List.append_assoc,
      ihinner (closing?_mem hpair) hinner, List.cons_append, closeGroups_close]
    exact ih hclose hus

end

/-- A reader takes a group. -/
theorem takes_group {o c : String} (h : closing? o = some c) {inner : List Shape} (hinner : Balanced inner) :
    Takes (group o) (.mark o :: (inner ++ [.mark c])) fun _ => True := by
  intro ts rest hfit _
  obtain ⟨gap, commented, ts, rfl, hts⟩ := fit_mark.mp hfit
  obtain ⟨front, back, hfront, hback, rfl⟩ := fit_append.mp hts
  obtain ⟨gap', commented', us, rfl, hus⟩ := fit_mark.mp hback
  obtain rfl := fit_nil.mp hus
  have hgroup : closeGroups [c] (front ++ ⟨.mark, c, gap', commented'⟩ :: rest) = some rest := by
    rw [closeGroups_balanced (closing?_mem h) hinner hfront, closeGroups_close, closeGroups]
  exact ⟨(), by simp [group, h, hgroup]⟩

theorem takes_anyGroup {o c : String} (h : closing? o = some c) {inner : List Shape} (hinner : Balanced inner) :
    Takes anyGroup (.mark o :: (inner ++ [.mark c])) fun _ => True := by
  intro ts rest hfit _
  obtain ⟨a, ha⟩ := takes_group h hinner ts rest hfit trivial
  obtain ⟨gap, commented, ts, rfl, hts⟩ := fit_mark.mp hfit
  have hother : ∀ m, m ≠ o → group m (⟨.mark, o, gap, commented⟩ :: ts ++ rest) = none := by
    intro m hm
    simp [group, hm.symm]
  rcases closing?_cases h with ⟨rfl, rfl⟩ | ⟨rfl, rfl⟩ | ⟨rfl, rfl⟩
  · exact ⟨a, by simp only [anyGroup, run_orElse, ha]; rfl⟩
  · exact ⟨a, by simp only [anyGroup, run_orElse, ha, hother "(" (by decide)]; rfl⟩
  · exact ⟨a, by simp only [anyGroup, run_orElse, ha, hother "(" (by decide), hother "[" (by decide)]; rfl⟩

end Groups

section Levels

/-- What is left where the level of brackets ends that is `d` levels further out: a bracket closes that was not opened
there, or on the outermost level a comma, a colon or an angle bracket comes. -/
def levelEnd : Nat → List Token → List Token
  | _, [] => []
  | 0, t :: rest =>
    if t.kind = .mark ∧ t.text ∈ "," :: ":" :: "<" :: closers then t :: rest
    else if t.kind = .mark ∧ (closing? t.text).isSome then levelEnd 1 rest
    else levelEnd 0 rest
  | d + 1, t :: rest =>
    if t.kind = .mark ∧ t.text ∈ closers then levelEnd d rest
    else if t.kind = .mark ∧ (closing? t.text).isSome then levelEnd (d + 2) rest
    else levelEnd (d + 1) rest

/-- A token that is no bracket, and on the outermost level no comma, no colon and no angle bracket. -/
def IsOn (d : Nat) (t : Token) : Prop :=
  t.kind = .mark → t.text ∉ brackets ∧ (d = 0 → t.text ≠ "," ∧ t.text ≠ ":" ∧ t.text ≠ "<")

theorem levelEnd_cons {d : Nat} {t : Token} (ht : IsOn d t) (rest : List Token) :
    levelEnd d (t :: rest) = levelEnd d rest := by
  by_cases hkind : t.kind = .mark
  · obtain ⟨hbracket, hcomma⟩ := ht hkind
    have hcloser : t.text ∉ closers := fun h => hbracket (List.mem_append_right _ h)
    cases d with
    | zero => simp [levelEnd, isNone_closing? hbracket, hcloser, hcomma]
    | succ d => simp [levelEnd, isNone_closing? hbracket, hcloser]
  · cases d <;> simp [levelEnd, hkind]

theorem levelEnd_open {d : Nat} {o c gap : String} {commented : Bool} (h : closing? o = some c) (rest : List Token) :
    levelEnd d (⟨.mark, o, gap, commented⟩ :: rest) = levelEnd (d + 1) rest := by
  have hopen : o ∉ "," :: ":" :: "<" :: closers := by
    rcases closing?_cases h with ⟨rfl, _⟩ | ⟨rfl, _⟩ | ⟨rfl, _⟩ <;> decide
  cases d with
  | zero => simp only [levelEnd, hopen, and_false, if_false, h]; rfl
  | succ d =>
    have hclosers : o ∉ closers := fun hmem => hopen (by simp [hmem])
    simp only [levelEnd, hclosers, and_false, if_false, h]
    rfl

theorem levelEnd_close {d : Nat} {c gap : String} {commented : Bool} (h : c ∈ closers) (rest : List Token) :
    levelEnd (d + 1) (⟨.mark, c, gap, commented⟩ :: rest) = levelEnd d rest := by
  simp [levelEnd, h]

theorem levelEnd_closeGroups {stack : List String} {ts rest : List Token} (h : closeGroups stack ts = some rest)
    (hstack : ∀ c ∈ stack, c ∈ closers) (d : Nat) : levelEnd (d + stack.length) ts = levelEnd d rest := by
  induction ts generalizing stack with
  | nil =>
    cases stack with
    | nil => rw [← Option.some.inj h, List.length_nil, Nat.add_zero]
    | cons c outer => cases h
  | cons t ts ih =>
    obtain ⟨kind, text, gap, commented⟩ := t
    cases stack with
    | nil => rw [← Option.some.inj h, List.length_nil, Nat.add_zero]
    | cons c outer =>
      obtain ⟨hc, houter⟩ := List.forall_mem_cons.mp hstack
      rw [List.length_cons, ← Nat.add_assoc]
      rw [closeGroups] at h
      split at h
      · rename_i hkind
        obtain rfl : kind = .mark := by simpa using hkind
        split at h
        · rename_i htext
          obtain rfl : text = c := by simpa using htext
          rw [levelEnd_close hc]
          exact ih h houter
        · split at h
          · rename_i inner hopen
            rw [levelEnd_open hopen]
            exact ih h (List.forall_mem_cons.mpr ⟨closing?_mem hopen, hstack⟩)
          · rename_i hopen
            split at h
            · cases h
            · rename_i hnot
              have hbracket : text ∉ brackets := by
                intro hmem
                simp [brackets, closers] at hmem
                rcases hmem with rfl | rfl | rfl | rfl | rfl | rfl <;> simp_all [closing?]
              rw [levelEnd_cons fun _ => ⟨hbracket, by simp⟩]
              exact ih h hstack
      · rename_i hkind
        rw [levelEnd_cons fun hmark => absurd hmark (by simpa using hkind)]
        exact ih h hstack

private theorem levelEnd_balanced {ts rest : List Token} {ss : List Shape} (h : Balanced ss) (hfit : Fit ts ss) (d : Nat) :
    levelEnd (d + 1) (ts ++ rest) = levelEnd (d + 1) rest := by
  induction h generalizing d ts rest with
  | nil => rw [fit_nil.mp hfit, List.nil_append]
  | cons hs _ ih =>
    obtain ⟨t, ts, ⟨hkind, htext, _⟩, hts, rfl⟩ := fit_cons.mp hfit
    rw [List.cons_append, levelEnd_cons, ih hts]
    exact fun hmark => ⟨fun hmem => hs ⟨hkind ▸ hmark, htext ▸ hmem⟩, by simp⟩
  | group hpair _ _ ihinner ih =>
    obtain ⟨gap, commented, ts, rfl, hts⟩ := fit_mark.mp hfit
    obtain ⟨inner, back, hinner, hback, rfl⟩ := fit_append.mp hts
    obtain ⟨gap', commented', us, rfl, hus⟩ := fit_mark.mp hback
    rw [List.cons_append, levelEnd_open hpair, List.append_assoc, ihinner hinner, List.cons_append,
      levelEnd_close (closing?_mem hpair), ih hus]

/-- Behind what is flat, a level that ends with a comma or a bracket ends with a comma or a bracket, if not with an
angle bracket. -/
theorem starts_levelEnd {ts rest : List Token} {ss : List Shape} (h : Flat ss) (hfit : Fit ts ss)
    (hrest : Starts [",", ")"] rest) : Starts [",", ")", "<"] (levelEnd 0 (ts ++ rest)) := by
  have hstop {t : Token} (after : List Token) (hkind : t.kind = .mark) (hmem : t.text ∈ [",", ")", "<"]) :
      Starts [",", ")", "<"] (levelEnd 0 (t :: after)) := by
    have hend : t.text ∈ "," :: ":" :: "<" :: closers := by
      simp only [List.mem_cons, List.not_mem_nil, or_false] at hmem
      rcases hmem with heq | heq | heq <;> simp [heq, closers]
    rw [levelEnd, if_pos ⟨hkind, hend⟩]
    exact ⟨t, after, rfl, hkind, hmem⟩
  induction h generalizing ts with
  | nil =>
    obtain ⟨t, after, rfl, hkind, hmem⟩ := hrest
    rw [fit_nil.mp hfit, List.nil_append]
    exact hstop after hkind (by simp only [List.mem_cons, List.not_mem_nil, or_false] at hmem ⊢; tauto)
  | angle _ =>
    obtain ⟨gap, commented, us, rfl, -⟩ := fit_mark.mp hfit
    exact hstop (us ++ rest) rfl (by simp)
  | cons hs _ ih =>
    obtain ⟨t, ts, ⟨hkind, htext, _⟩, hts, rfl⟩ := fit_cons.mp hfit
    by_cases hcomma : t.kind = .mark ∧ t.text ∈ [",", ")", "<"]
    · exact hstop (ts ++ rest) hcomma.1 hcomma.2
    · rw [List.cons_append, levelEnd_cons]
      · exact ih hts
      · intro hmark
        have hnot : t.text ∉ ":" :: brackets := fun hmem => hs ⟨hkind ▸ hmark, htext ▸ hmem⟩
        obtain ⟨hcolon, hbracket⟩ := not_or.mp (List.mem_cons.not.mp hnot)
        have hne : t.text ∉ [",", ")", "<"] := fun hmem => hcomma ⟨hmark, hmem⟩
        simp only [List.mem_cons, List.not_mem_nil, or_false, not_or] at hne
        exact ⟨hbracket, fun _ => ⟨hne.1, hcolon, hne.2.2⟩⟩
  | group hpair hinner _ ih =>
    obtain ⟨gap, commented, ts, rfl, hts⟩ := fit_mark.mp hfit
    obtain ⟨inner, back, hfitinner, hback, rfl⟩ := fit_append.mp hts
    obtain ⟨gap', commented', us, rfl, hus⟩ := fit_mark.mp hback
    rw [List.cons_append, levelEnd_open hpair, List.append_assoc, levelEnd_balanced hinner hfitinner, List.cons_append,
      levelEnd_close (closing?_mem hpair)]
    exact ih hus

end Levels

end Reader

end TraitMock.Syntax
