import TraitMock.Proofs.Syntax.Brackets

namespace TraitMock.Syntax.Reader

section Accepting

private theorem treeBut_none {stops : List String} {rest : List Token} (h : Starts closers rest) :
    treeBut stops rest = none := by
  obtain ⟨⟨kind, text, gap, commented⟩, after, rfl, hkind, hmem⟩ := h
  obtain rfl : kind = .mark := hkind
  simp only [closers, List.mem_cons, List.not_mem_nil, or_false] at hmem
  rcases hmem with rfl | rfl | rfl <;> simp [treeBut, anyGroup, group]

private theorem anyGroup_inner {t : Token} (ht : ¬(t.kind = .mark ∧ t.text ∈ brackets)) (rest : List Token) :
    anyGroup (t :: rest) = none := by
  have hother : ∀ m ∈ brackets, group m (t :: rest) = none := by
    intro m hm
    have hnot : ¬(t.kind = .mark ∧ t.text = m) := fun h => ht ⟨h.1, h.2 ▸ hm⟩
    simp [group, hnot]
  simp [anyGroup, hother "(" (by decide), hother "[" (by decide), hother "\x7b" (by decide)]

private theorem treeBut_inner {t : Token} (ht : ¬(t.kind = .mark ∧ t.text ∈ brackets)) (rest : List Token) :
    treeBut [] (t :: rest) = some ((), rest) := by
  have hnot : (!(t.kind == .mark && ["(", "[", "\x7b", ")", "]", "\x7d"].contains t.text)) = true := by
    simpa [brackets, closers, ← imp_iff_not_or] using ht
  simp only [treeBut, run_orElse, anyGroup_inner ht, List.nil_append, run_bind, run_tokenThat, hnot, if_true]
  rfl

/-- Balanced tokens are read one tree after the other, up to a closing mark. -/
theorem repeated_trees {ts rest : List Token} {ss : List Shape} (h : Balanced ss) (hfit : Fit ts ss)
    (hrest : Starts closers rest) : ∃ as, repeated (treeBut []) (ts ++ rest) = (as, rest) ∧ (ss ≠ [] → as ≠ []) := by
  induction h generalizing ts with
  | nil =>
    obtain rfl := fit_nil.mp hfit
    exact ⟨[], repeated_none (treeBut_none hrest), fun hne => absurd rfl hne⟩
  | cons hs _ ih =>
    obtain ⟨t, ts, ⟨hkind, htext, _⟩, hts, rfl⟩ := fit_cons.mp hfit
    obtain ⟨as, has, -⟩ := ih hts
    have hread := treeBut_inner (by rwa [hkind, htext]) (ts ++ rest)
    rw [List.cons_append, repeated_some hread (by simp), has]
    exact ⟨_, rfl, by simp⟩
  | @group o c inner ss hclose hinner _ _ ih =>
    have hshapes : Shape.mark o :: (inner ++ Shape.mark c :: ss) = (.mark o :: (inner ++ [.mark c])) ++ ss := by simp
    rw [hshapes] at hfit
    obtain ⟨front, back, hfront, hback, rfl⟩ := fit_append.mp hfit
    obtain ⟨as, has, -⟩ := ih hback
    obtain ⟨u, hread⟩ := takes_anyGroup hclose hinner front (back ++ rest) hfront trivial
    have htree : treeBut [] (front ++ (back ++ rest)) = some ((), back ++ rest) := by
      rw [treeBut, run_orElse, hread]
      rfl
    have hless : (back ++ rest).length < (front ++ (back ++ rest)).length := by
      have hlength := hfront.length_eq
      simp only [List.length_append, List.length_cons] at hlength ⊢
      omega
    rw [List.append_assoc, repeated_some htree hless, has]
    exact ⟨_, rfl, by simp⟩

theorem takes_trees {ss : List Shape} (h : Balanced ss) (hne : ss ≠ []) : Takes (trees []) ss (Starts closers) := by
  intro ts rest hfit hrest
  obtain ⟨as, has, hsome⟩ := repeated_trees h hfit hrest
  rw [repeated] at has
  split at has
  · exact absurd (Prod.mk.inj has).1.symm (hsome hne)
  · rename_i u mid hread
    split at has
    · obtain ⟨-, hmid⟩ := Prod.mk.inj has
      refine ⟨(), ?_⟩
      simp [trees, hread, hmid]
    · exact absurd (Prod.mk.inj has).1.symm (hsome hne)

end Accepting

section Inversion

variable {ts rest : List Token} {u : Unit}

theorem eq_of_mark {m : String} (h : mark m ts = some (u, rest)) :
    ∃ gap commented, ts = ⟨.mark, m, gap, commented⟩ :: rest := by
  cases ts with
  | nil => cases h
  | cons t ts =>
    obtain ⟨kind, text, gap, commented⟩ := t
    rw [run_mark] at h
    split at h
    · rename_i hmark
      obtain ⟨rfl, rfl⟩ : kind = .mark ∧ text = m := by simpa using hmark
      obtain ⟨-, rfl⟩ := Prod.mk.inj (Option.some.inj h)
      exact ⟨gap, commented, rfl⟩
    · cases h

theorem eq_of_name {w : String} (h : name ts = some (w, rest)) :
    ∃ gap commented, ts = ⟨.word, w, gap, commented⟩ :: rest := by
  cases ts with
  | nil => cases h
  | cons t ts =>
    obtain ⟨kind, text, gap, commented⟩ := t
    rw [run_name] at h
    split at h
    · rename_i hword
      obtain rfl : kind = .word := by simpa using hword
      obtain ⟨rfl, rfl⟩ := Prod.mk.inj (Option.some.inj h)
      exact ⟨gap, commented, rfl⟩
    · cases h

theorem eq_of_optionalMark {m : String} {b : Bool} (h : optionalMark m ts = some (b, rest)) :
    (b = true ∧ ∃ gap commented, ts = ⟨.mark, m, gap, commented⟩ :: rest) ∨ b = false ∧ ts = rest := by
  cases ts with
  | nil =>
    obtain ⟨rfl, rfl⟩ := Prod.mk.inj (Option.some.inj h)
    exact .inr ⟨rfl, rfl⟩
  | cons t ts =>
    obtain ⟨kind, text, gap, commented⟩ := t
    rw [run_optionalMark] at h
    split at h
    · rename_i hmark
      obtain ⟨rfl, rfl⟩ : kind = .mark ∧ text = m := by simpa using hmark
      obtain ⟨rfl, rfl⟩ := Prod.mk.inj (Option.some.inj h)
      exact .inl ⟨rfl, gap, commented, rfl⟩
    · obtain ⟨rfl, rfl⟩ := Prod.mk.inj (Option.some.inj h)
      exact .inr ⟨rfl, rfl⟩

private theorem mem_closers {m : String} (hmem : m ∈ brackets) (hnone : closing? m = none) : m ∈ closers := by
  rcases List.mem_append.mp hmem with hopen | hclose
  · simp only [List.mem_cons, List.not_mem_nil, or_false] at hopen
    rcases hopen with rfl | rfl | rfl <;> cases hnone
  · exact hclose

/-- What is read as a group is balanced. The induction is on the number of tokens: behind an opening mark, first what it
    opens is read, and then what is left. -/
theorem eq_of_closeGroups {c : String} {outer : List String} (h : closeGroups (c :: outer) ts = some rest) :
    ∃ inner ss gap commented more, ts = inner ++ ⟨.mark, c, gap, commented⟩ :: more ∧ Fit inner ss ∧ Balanced ss ∧
      closeGroups outer more = some rest := by
  induction hn : ts.length using Nat.strongRecOn generalizing c outer ts with
  | ind n ih =>
    subst hn
    cases ts with
    | nil => cases h
    | cons t ts =>
      obtain ⟨kind, text, gap, commented⟩ := t
      have hfits : Shape.Fits ⟨kind, text, false⟩ ⟨kind, text, gap, commented⟩ := ⟨rfl, rfl, by simp⟩
      have hinner (hread : closeGroups (c :: outer) ts = some rest) (hs : Shape.IsInner ⟨kind, text, false⟩) :
          ∃ inner ss gap' commented' more, ⟨kind, text, gap, commented⟩ :: ts =
            inner ++ ⟨.mark, c, gap', commented'⟩ :: more ∧ Fit inner ss ∧ Balanced ss ∧
            closeGroups outer more = some rest := by
        obtain ⟨inner, ss, gap', commented', more, rfl, hfit, hbalanced, hmore⟩ := ih _ (Nat.lt_succ_self _) hread rfl
        exact ⟨_ :: inner, _ :: ss, gap', commented', more, rfl, fit_cons.mpr ⟨_, _, hfits, hfit, rfl⟩,
          .cons hs hbalanced, hmore⟩
      rw [closeGroups] at h
      split at h
      · rename_i hkind
        obtain rfl : kind = .mark := by simpa using hkind
        split at h
        · rename_i htext
          obtain rfl : text = c := by simpa using htext
          exact ⟨[], [], gap, commented, ts, rfl, fit_nil.mpr rfl, .nil, h⟩
        · split at h
          · rename_i close hopen
            obtain ⟨first, ss, gap', commented', mid, rfl, hfirst, hss, hmid⟩ := ih _ (Nat.lt_succ_self _) h rfl
            obtain ⟨second, us, gap'', commented'', more, rfl, hsecond, hus, hmore⟩ := ih _ (by simp; omega) hmid rfl
            refine ⟨⟨.mark, text, gap, commented⟩ :: (first ++ ⟨.mark, close, gap', commented'⟩ :: second), _, gap'',
              commented'', more, by simp, ?_, .group hopen hss hus, hmore⟩
            exact fit_mark.mpr ⟨_, _, _, rfl, fit_append.mpr ⟨_, _, hfirst, fit_mark.mpr ⟨_, _, _, rfl, hsecond⟩, rfl⟩⟩
          · rename_i hopen
            split at h
            · cases h
            · rename_i hnot
              refine hinner h fun hs => hnot ?_
              simpa [closers, or_assoc] using mem_closers hs.2 hopen
      · rename_i hkind
        exact hinner h fun hs => absurd hs.1 (by simpa using hkind)

theorem eq_of_group {o : String} (h : group o ts = some (u, rest)) :
    ∃ c inner front, closing? o = some c ∧ Balanced inner ∧ ts = front ++ rest ∧
      Fit front (.mark o :: (inner ++ [.mark c])) := by
  rw [group, run_bind] at h
  obtain ⟨⟨_, mid⟩, hmark, hread⟩ := Option.bind_eq_some_iff.mp h
  obtain ⟨gap, commented, rfl⟩ := eq_of_mark hmark
  cases hclose : closing? o with
  | none =>
    rw [hclose] at hread
    cases hread
  | some c =>
    rw [hclose] at hread
    obtain ⟨mid', hclosed, hmid⟩ := Option.map_eq_some_iff.mp hread
    obtain ⟨-, rfl⟩ := Prod.mk.inj hmid
    obtain ⟨inner, ss, gap', commented', more, rfl, hfit, hbalanced, hmore⟩ := eq_of_closeGroups hclosed
    rw [closeGroups] at hmore
    obtain rfl := Option.some.inj hmore
    refine ⟨c, ss, ⟨.mark, o, gap, commented⟩ :: (inner ++ [⟨.mark, c, gap', commented'⟩]), rfl, hbalanced, by simp, ?_⟩
    exact fit_mark.mpr ⟨_, _, _, rfl, fit_append.mpr ⟨_, _, hfit, fit_mark.mpr ⟨_, _, _, rfl, fit_nil.mpr rfl⟩, rfl⟩⟩

theorem eq_of_anyGroup (h : anyGroup ts = some (u, rest)) :
    ∃ o c inner front, closing? o = some c ∧ Balanced inner ∧ ts = front ++ rest ∧
      Fit front (.mark o :: (inner ++ [.mark c])) := by
  rw [anyGroup, run_orElse, run_orElse] at h
  rcases Option.or_eq_some_iff.mp h with h | ⟨_, h⟩
  · exact ⟨_, eq_of_group h⟩
  · rcases Option.or_eq_some_iff.mp h with h | ⟨_, h⟩
    · exact ⟨_, eq_of_group h⟩
    · exact ⟨_, eq_of_group h⟩

theorem eq_of_treeBut (h : treeBut [] ts = some (u, rest)) :
    ∃ front ss, ts = front ++ rest ∧ Fit front ss ∧ Balanced ss ∧ ss ≠ [] := by
  rw [treeBut, run_orElse] at h
  rcases Option.or_eq_some_iff.mp h with h | ⟨_, h⟩
  · obtain ⟨o, c, inner, front, hclose, hinner, rfl, hfit⟩ := eq_of_anyGroup h
    exact ⟨front, _, rfl, hfit, .group hclose hinner .nil, by simp⟩
  · rw [run_bind] at h
    obtain ⟨⟨t, mid⟩, hread, hmid⟩ := Option.bind_eq_some_iff.mp h
    obtain ⟨-, rfl⟩ := Prod.mk.inj (Option.some.inj hmid)
    cases ts with
    | nil => cases hread
    | cons t' ts =>
      rw [run_tokenThat] at hread
      split at hread
      · rename_i hinner
        obtain ⟨rfl, rfl⟩ := Prod.mk.inj (Option.some.inj hread)
        refine ⟨[t'], [⟨t'.kind, t'.text, false⟩], rfl, ?_, .cons ?_ .nil, by simp⟩
        · exact fit_cons.mpr ⟨t', [], ⟨rfl, rfl, by simp⟩, fit_nil.mpr rfl, rfl⟩
        · simpa [Shape.IsInner, brackets, closers, ← imp_iff_not_or] using hinner
      · cases hread

/-- What a reader of pieces reads again and again is written as one piece after the other. -/
theorem eq_of_repeated {α : Type} {r : Reader α} {P : α → List Shape → Prop}
    (h : ∀ ts a rest, r ts = some (a, rest) → ∃ front ss, ts = front ++ rest ∧ Fit front ss ∧ P a ss)
    (ts : List Token) : ∃ front sss, ts = front ++ (repeated r ts).2 ∧ Fit front sss.flatten ∧
      List.Forall₂ P (repeated r ts).1 sss := by
  fun_induction repeated r ts with
  | case1 ts _ => exact ⟨[], [], rfl, fit_nil.mpr rfl, .nil⟩
  | case2 ts a mid hread _ more ih =>
    obtain ⟨first, ss, rfl, hfirst, hss⟩ := h _ _ _ hread
    obtain ⟨second, sss, hmid, hsecond, hsss⟩ := ih
    refine ⟨first ++ second, ss :: sss, ?_, fit_append.mpr ⟨_, _, hfirst, hsecond, rfl⟩, .cons hss hsss⟩
    rw [List.append_assoc, ← hmid]
  | case3 ts a mid _ _ => exact ⟨[], [], rfl, fit_nil.mpr rfl, .nil⟩

private theorem balanced_flatten {α : Type} {as : List α} {sss : List (List Shape)}
    (h : List.Forall₂ (fun _ ss => Balanced ss) as sss) : Balanced sss.flatten := by
  induction h with
  | nil => exact .nil
  | cons hss _ ih => exact hss.append ih

theorem eq_of_trees (h : trees [] ts = some (u, rest)) :
    ∃ front ss, ts = front ++ rest ∧ Fit front ss ∧ Balanced ss ∧ ss ≠ [] := by
  rw [trees, run_bind] at h
  obtain ⟨⟨_, mid⟩, hread, hrest⟩ := Option.bind_eq_some_iff.mp h
  obtain ⟨first, ss, rfl, hfirst, hss, hne⟩ := eq_of_treeBut hread
  obtain ⟨second, sss, hmid, hsecond, htrees⟩ := eq_of_repeated (r := treeBut []) (P := fun _ us => Balanced us)
    (fun _ _ _ htree => by
      obtain ⟨front, us, heq, hfit, hus, -⟩ := eq_of_treeBut htree
      exact ⟨front, us, heq, hfit, hus⟩) mid
  obtain rfl : (repeated (treeBut []) mid).2 = rest := by simpa using hrest
  refine ⟨first ++ second, ss ++ sss.flatten, ?_, fit_append.mpr ⟨_, _, hfirst, hsecond, rfl⟩, hss.append (balanced_flatten htrees),
    by simp [hne]⟩
  rw [List.append_assoc, ← hmid]

end Inversion

end TraitMock.Syntax.Reader
