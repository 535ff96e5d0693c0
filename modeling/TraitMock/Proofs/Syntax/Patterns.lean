import TraitMock.Proofs.Syntax.Brackets

namespace TraitMock.Syntax.Reader

section Staying

variable {α β : Type} {r s : Reader α} {least : Nat}

/-- A reader stays on the level of brackets on which it begins, if that is at least `least` deep. -/
def Stays (least : Nat) (r : Reader α) : Prop :=
  ∀ ts a rest, r ts = some (a, rest) → ∀ d, least ≤ d → levelEnd d ts = levelEnd d rest

/-- A reader ends one level of brackets further out than it begins. -/
def Leaves (r : Reader α) : Prop := ∀ ts a rest, r ts = some (a, rest) → ∀ d, levelEnd (d + 1) ts = levelEnd d rest

theorem Stays.mono {more : Nat} (h : Stays least r) (hle : least ≤ more) : Stays more r :=
  fun ts a rest hr d hd => h ts a rest hr d (Nat.le_trans hle hd)

theorem Stays.bind {f : α → Reader β} (hr : Stays least r) (hf : ∀ a, Stays least (f a)) :
    Stays least (r >>= f) := by
  intro ts b rest h d hd
  rw [run_bind] at h
  obtain ⟨⟨a, mid⟩, ha, hb⟩ := Option.bind_eq_some_iff.mp h
  exact (hr ts a mid ha d hd).trans (hf a mid b rest hb d hd)

theorem Leaves.bind {f : α → Reader β} (hr : Leaves r) (hf : ∀ a, Stays 0 (f a)) : Leaves (r >>= f) := by
  intro ts b rest h d
  rw [run_bind] at h
  obtain ⟨⟨a, mid⟩, ha, hb⟩ := Option.bind_eq_some_iff.mp h
  exact (hr ts a mid ha d).trans (hf a mid b rest hb d (Nat.zero_le d))

theorem Stays.leaves {f : α → Reader β} (hr : Stays 1 r) (hf : ∀ a, Leaves (f a)) : Leaves (r >>= f) := by
  intro ts b rest h d
  rw [run_bind] at h
  obtain ⟨⟨a, mid⟩, ha, hb⟩ := Option.bind_eq_some_iff.mp h
  exact (hr ts a mid ha (d + 1) (by omega)).trans (hf a mid b rest hb d)

theorem stays_pure (a : α) : Stays least (pure a : Reader α) := by
  intro ts b rest h d _
  rw [(Prod.mk.inj (Option.some.inj h)).2]

theorem stays_failure : Stays least (failure : Reader α) := fun _ _ _ h => nomatch h

theorem Stays.orElse (hr : Stays least r) (hs : Stays least s) : Stays least (r <|> s) := by
  intro ts a rest h
  rw [run_orElse] at h
  rcases Option.or_eq_some_iff.mp h with h | ⟨_, h⟩
  · exact hr ts a rest h
  · exact hs ts a rest h

theorem Stays.optional (hr : Stays least r) : Stays least (optional r) := by
  intro ts a rest h d hd
  rw [run_optional] at h
  cases hts : r ts with
  | none =>
    rw [hts] at h
    rw [(Prod.mk.inj (Option.some.inj h)).2]
  | some x =>
    rw [hts] at h
    rw [← (Prod.mk.inj (Option.some.inj h)).2]
    exact hr ts x.1 x.2 hts d hd

theorem Stays.many (hr : Stays least r) : Stays least (many r) := by
  intro ts as rest h d hd
  obtain rfl := (Prod.mk.inj (Option.some.inj h)).2
  clear h
  fun_induction repeated r ts with
  | case1 => rfl
  | case2 ts a rest hread _ more ih => exact (hr ts a rest hread d hd).trans ih
  | case3 => rfl

theorem stays_tokenThat {p : Token → Bool} (hp : ∀ t d, least ≤ d → p t = true → IsOn d t) :
    Stays least (tokenThat p) := by
  intro ts a rest h d hd
  cases ts with
  | nil => cases h
  | cons t ts =>
    rw [run_tokenThat] at h
    split at h
    · rename_i hpt
      obtain ⟨rfl, rfl⟩ := Prod.mk.inj (Option.some.inj h)
      exact levelEnd_cons (hp t d hd hpt) ts
    · cases h

theorem stays_mark {m : String} (hbracket : m ∉ brackets) (hcomma : least = 0 → m ≠ "," ∧ m ≠ ":" ∧ m ≠ "<") :
    Stays least (mark m) := by
  refine (stays_tokenThat fun t d hd ht => ?_).bind fun _ => stays_pure ()
  obtain ⟨_, rfl⟩ : t.kind = .mark ∧ t.text = m := by simpa using ht
  exact fun _ => ⟨hbracket, fun hzero => hcomma (by omega)⟩

theorem stays_word {p : Token → Bool} (hp : ∀ t, p t = true → t.kind ≠ .mark) : Stays least (tokenThat p) :=
  stays_tokenThat fun t _ _ ht hmark => absurd hmark (hp t ht)

theorem stays_keyword (w : String) : Stays least (keyword w) :=
  (stays_word fun t ht => by simp [(by simpa using ht : t.kind = .word ∧ t.text = w).1]).bind fun _ => stays_pure ()

private theorem stays_name : Stays least name :=
  (stays_word fun t ht => by simp [(by simpa using ht : t.kind = .word)]).bind fun t => stays_pure t.text

theorem stays_look {c : Reader Bool} (hc : ∀ ts b rest, c ts = some (b, rest) → rest = ts) : Stays least c :=
  fun ts b rest h _ _ => by rw [hc ts b rest h]

private theorem stays_isMark (m : String) : Stays least (isMark m) := stays_look fun ts b rest h => by
  cases ts <;> exact (Prod.mk.inj (Option.some.inj h)).2.symm

private theorem stays_isWord (w : String) : Stays least (isWord w) := stays_look fun ts b rest h => by
  cases ts <;> exact (Prod.mk.inj (Option.some.inj h)).2.symm

theorem Stays.ite {c : Prop} [Decidable c] (hr : Stays least r) (hs : Stays least s) :
    Stays least (if c then r else s) := by
  split
  · exact hr
  · exact hs

theorem stays_optionalMark {m : String} (hbracket : m ∉ brackets) (hcomma : least = 0 → m ≠ "," ∧ m ≠ ":" ∧ m ≠ "<") :
    Stays least (optionalMark m) :=
  (stays_isMark m).bind fun _ =>
    ((stays_mark hbracket hcomma).bind fun _ => stays_pure true).ite (stays_pure false)

private theorem stays_optionalKeyword (w : String) : Stays least (optionalKeyword w) :=
  (stays_isWord w).bind fun _ => ((stays_keyword w).bind fun _ => stays_pure true).ite (stays_pure false)

theorem Stays.separated {sep : String} (hr : Stays least r) (hsep : Stays least (mark sep)) :
    Stays least (separated sep r) :=
  hr.bind fun first => (Stays.many (hsep.bind fun _ => hr)).bind fun rest => stays_pure (first :: rest)

theorem leaves_mark {c : String} (hc : c ∈ closers) : Leaves (mark c) := by
  intro ts a rest h d
  cases ts with
  | nil => cases h
  | cons t ts =>
    obtain ⟨kind, text, gap, commented⟩ := t
    rw [run_mark] at h
    split at h
    · rename_i hmark
      obtain ⟨rfl, rfl⟩ : kind = .mark ∧ text = c := by simpa using hmark
      rw [← (Prod.mk.inj (Option.some.inj h)).2]
      exact levelEnd_close hc ts
    · cases h

theorem Stays.open {o c : String} (h : closing? o = some c) (hr : Leaves r) : Stays least (do mark o; r) := by
  intro ts a rest hread d _
  cases ts with
  | nil => cases hread
  | cons t ts =>
    obtain ⟨kind, text, gap, commented⟩ := t
    rw [run_bind, run_mark] at hread
    split at hread
    · rename_i hmark
      obtain ⟨rfl, rfl⟩ : kind = .mark ∧ text = o := by simpa using hmark
      rw [levelEnd_open h]
      exact hr ts a rest hread d
    · cases hread

private theorem leaves_listed {close : String} (hr : Stays 1 r) (hc : close ∈ closers) : Leaves (listed close r) := by
  have hitems : Leaves (do
      let items ← Reader.separated "," r
      let _ ← optionalMark ","
      mark close
      pure items) :=
    (hr.separated (stays_mark (by decide) (by simp))).leaves fun items =>
      (stays_optionalMark (by decide) (by simp)).leaves fun _ => (leaves_mark hc).bind fun _ => stays_pure items
  intro ts as rest h d
  rw [listed, run_bind] at h
  obtain ⟨⟨found, mid⟩, hmark, hafter⟩ := Option.bind_eq_some_iff.mp h
  cases found with
  | false =>
    have hmid : mid = ts := by
      cases ts with
      | nil => exact (Prod.mk.inj (Option.some.inj hmark)).2.symm
      | cons t ts =>
        rw [run_optionalMark] at hmark
        split at hmark <;> simp_all
    rw [← hmid]
    exact hitems mid as rest hafter d
  | true =>
    obtain rfl := (Prod.mk.inj (Option.some.inj hafter)).2
    refine leaves_mark hc ts () mid ?_ d
    cases ts with
    | nil => cases hmark
    | cons t ts =>
      rw [run_optionalMark] at hmark
      rw [run_mark]
      split at hmark <;> simp_all

theorem stays_group {o c : String} (h : closing? o = some c) : Stays least (group o) := by
  refine Stays.open h fun ts a rest hread d => ?_
  rw [h] at hread
  obtain ⟨after, hclose, heq⟩ := Option.map_eq_some_iff.mp hread
  rw [← (Prod.mk.inj heq).2]
  exact levelEnd_closeGroups hclose (by simpa using closing?_mem h) d

private theorem stays_anyGroup : Stays least anyGroup :=
  (stays_group (c := ")") rfl).orElse ((stays_group (c := "]") rfl).orElse (stays_group (c := "\x7d") rfl))

end Staying

section Levels

theorem stays_literalPattern : Stays 0 literalPattern := by
  refine (stays_optionalMark (by decide) (by decide)).bind fun found => Stays.ite ?_ ?_
  · exact (stays_word fun t ht => by simp [(by simpa using ht : t.kind = .number)]).bind fun _ => stays_pure _
  · refine (stays_word fun t ht => ?_).bind fun _ => stays_pure _
    have hkind : (t.kind ≠ .mark ∧ t.kind ≠ .word) ∧ t.kind ≠ .lifetime := by simpa using ht
    exact hkind.1.1

theorem stays_pathPattern : Stays 0 pathPattern :=
  (stays_optionalMark (by decide) (by decide)).bind fun _ =>
    (stays_name.separated (stays_mark (by decide) (by decide))).bind fun _ => stays_failure.ite (stays_pure _)

theorem stays_rangeTail : Stays 0 rangeTail := by
  refine Stays.bind (Stays.orElse (stays_mark (by decide) (by decide)) ?_) fun _ => ?_
  · exact (stays_mark (by decide) (by decide)).bind fun _ =>
      (stays_optionalMark (by decide) (by decide)).bind fun _ => stays_pure _
  · exact (stays_literalPattern.orElse stays_pathPattern).optional.bind fun _ => stays_pure _

theorem Stays.alternatives {r : Reader Unit} {least : Nat} (hr : Stays least r) : Stays least (alternatives r) :=
  (stays_optionalMark (by decide) (by simp)).bind fun _ =>
    (hr.separated (stays_mark (by decide) (by simp))).bind fun _ => stays_pure _

private theorem stays_patternOperand (n : Nat) : Stays 0 (patternOperand n) := by
  induction n with
  | zero => exact stays_failure
  | succ n ih =>
    have hlist : ∀ {close : String}, close ∈ closers →
        Leaves (do let _ ← listed close (Reader.alternatives (patternOperand n))) := fun hclose =>
      (leaves_listed (ih.mono (Nat.zero_le 1)).alternatives hclose).bind fun _ => stays_pure _
    have hmark {m : String} (h : m ∉ brackets ∧ m ≠ "," ∧ m ≠ ":" ∧ m ≠ "<") : Stays 0 (mark m) := stays_mark h.1 fun _ => h.2
    rw [patternOperand]
    refine .orElse ((hmark (by decide)).bind fun _ => (stays_optionalKeyword "mut").bind fun _ => ih) ?_
    refine .orElse (((stays_keyword "ref").orElse (stays_keyword "mut")).bind fun _ => ih) ?_
    refine .orElse (.open (c := ")") rfl (hlist (by decide))) ?_
    refine .orElse (.open (c := "]") rfl (hlist (by decide))) ?_
    refine .orElse ((stays_keyword "const").bind fun _ => stays_group (c := "\x7d") rfl) ?_
    refine .orElse (stays_pathPattern.bind fun _ => ?_) ?_
    · refine .orElse (.open (c := ")") rfl (hlist (by decide))) ?_
      refine .orElse (stays_group (c := "\x7d") rfl) ?_
      refine .orElse ((hmark (by decide)).bind fun _ => stays_anyGroup) ?_
      refine .orElse ((hmark (by decide)).bind fun _ => ih) ?_
      exact stays_rangeTail.optional.bind fun _ => stays_pure _
    · refine .orElse (stays_literalPattern.bind fun _ => ?_) stays_rangeTail
      exact stays_rangeTail.optional.bind fun _ => stays_pure _

theorem Stays.colon_eq_none {r : Reader Unit} {ts : List Token} (hr : Stays 0 r)
    (hend : Starts [",", ")", "<"] (levelEnd 0 ts)) : (do r; mark ":") ts = none := by
  rw [run_bind]
  refine Option.eq_none_iff_forall_not_mem.mpr fun x hx => ?_
  obtain ⟨⟨_, mid⟩, hmid, hcolon⟩ := Option.bind_eq_some_iff.mp hx
  have hlevel := hr ts () mid hmid 0 (Nat.le_refl 0)
  cases mid with
  | nil => cases hcolon
  | cons t after =>
    rw [run_mark] at hcolon
    split at hcolon
    · rename_i ht
      obtain ⟨hkind, htext⟩ : t.kind = .mark ∧ t.text = ":" := by simpa using ht
      have hself : levelEnd 0 (t :: after) = t :: after := by simp [levelEnd, hkind, htext]
      obtain ⟨u, _, hu, _, hmem⟩ := hend
      rw [hlevel, hself] at hu
      rw [← (List.cons.inj hu).1, htext] at hmem
      exact absurd hmem (by decide)
    · cases hcolon

/-- No pattern in front of a colon is read from what is flat, up to the end of its level. -/
theorem patternColon_eq_none {ts rest : List Token} {ss : List Shape} (h : Flat ss) (hfit : Fit ts ss)
    (hrest : Starts [",", ")"] rest) : patternColon (ts ++ rest) = none := by
  have hend := starts_levelEnd h hfit hrest
  have hpattern : Stays 0 pattern := fun us a after hread =>
    (stays_patternOperand (us.length + 1)).alternatives us a after hread
  rw [patternColon, run_orElse, (stays_keyword "self").colon_eq_none hend, hpattern.colon_eq_none hend]
  rfl

end Levels

section Names

/-- The words that begin a pattern other than a name. -/
def patternWords : List String := ["ref", "mut", "const", "self"]

/-- The marks that go on with a name as a pattern. -/
def patternMarks : List String := ["::", "(", "\x7b", "!", "@", "...", ".."]

private theorem rangeTail_eq_none {rest : List Token} (h : Clear patternMarks rest) : rangeTail rest = none := by
  simp [rangeTail, h.mark (m := "...") (by decide), h.mark (m := "..") (by decide)]

/-- Shapes that are read as a pattern without alternatives. -/
structure IsPattern (ss : List Shape) : Prop where
  head : ∃ s ∈ ss.head?, s.kind = .mark → s.text = "("
  reads : ∀ n, ss.length < n → Takes (patternOperand n) ss (Clear patternMarks)

theorem isPattern_name {x : String} (hx : x ∉ patternWords) : IsPattern [.word x] := by
  refine ⟨⟨_, rfl, by simp [Shape.word]⟩, fun n hn ts rest hfit hrest => ?_⟩
  obtain ⟨n, rfl⟩ := Nat.exists_eq_add_of_lt hn
  obtain ⟨gap, commented, us, rfl, hus⟩ := fit_word.mp hfit
  obtain rfl := fit_nil.mp hus
  have hrange := rangeTail_eq_none hrest
  have hpath : repeated (do mark "::"; name) rest = ([], rest) :=
    repeated_none (by simp [hrest.mark (m := "::") (by decide)])
  simp only [patternWords, List.mem_cons, List.not_mem_nil, or_false, not_or] at hx
  refine ⟨(), ?_⟩
  rw [patternOperand]
  simp [pathPattern, separated, group, hx, hpath, hrange, hrest.mark (m := "(") (by decide),
    hrest.mark (m := "\x7b") (by decide), hrest.mark (m := "!") (by decide), hrest.mark (m := "@") (by decide)]

theorem IsPattern.mut {ss : List Shape} (h : IsPattern ss) : IsPattern (.word "mut" :: ss) := by
  refine ⟨⟨_, rfl, by simp [Shape.word]⟩, fun n hn ts rest hfit hrest => ?_⟩
  cases n with
  | zero => cases hn
  | succ n =>
    obtain ⟨gap, commented, us, rfl, hus⟩ := fit_word.mp hfit
    obtain ⟨a, ha⟩ := h.reads n (Nat.lt_of_succ_lt_succ hn) us rest hus hrest
    refine ⟨(), ?_⟩
    rw [patternOperand]
    simp [ha]

private theorem patternOperand_closed {ts : List Token} (h : Starts closers ts) (n : Nat) : patternOperand n ts = none := by
  obtain ⟨⟨kind, text, gap, commented⟩, after, rfl, rfl, hmem⟩ := h
  simp only [closers, List.mem_cons, List.not_mem_nil, or_false] at hmem
  cases n with
  | zero => rfl
  | succ n =>
    rw [patternOperand]
    rcases hmem with rfl | rfl | rfl <;> simp [pathPattern, literalPattern, rangeTail, separated]

theorem alternatives_closed {ts : List Token} (h : Starts closers ts) (n : Nat) :
    alternatives (patternOperand n) ts = none := by
  have hbar : Clear ["|"] ts := h.clear (by decide)
  simp [alternatives, separated, hbar.optionalMark, patternOperand_closed h n]

theorem IsPattern.takes_alternatives {ss : List Shape} (h : IsPattern ss) {n : Nat} (hn : ss.length < n) :
    Takes (alternatives (patternOperand n)) ss (Clear ("|" :: patternMarks)) := by
  intro ts rest hfit hrest
  obtain ⟨s, hs, hbar⟩ := h.head
  obtain ⟨us, rfl⟩ := List.head?_eq_some_iff.mp hs
  obtain ⟨a, ha⟩ := h.reads n hn ts rest hfit (hrest.mono fun m => List.mem_cons_of_mem _)
  obtain ⟨t, ts, ⟨hkind, htext, _⟩, _, rfl⟩ := fit_cons.mp hfit
  have hfirst : optionalMark "|" (t :: ts ++ rest) = some (false, t :: ts ++ rest) := by
    rw [List.cons_append, run_optionalMark, if_neg]
    simp only [Bool.and_eq_true, beq_iff_eq, hkind, htext]
    rintro ⟨hmark, heq⟩
    rw [hbar hmark] at heq
    revert heq
    decide
  have hmore : repeated (do mark "|"; patternOperand n) rest = ([], rest) :=
    repeated_none (by simp [hrest.mark (m := "|") (by decide)])
  exact ⟨(), by simp only [alternatives, separated, run_bind, hfirst, Option.bind_some, ha, run_many, hmore, run_pure]⟩

/-- Patterns up to a closing parenthesis. -/
theorem takes_patterns {items : List (List Shape)} (hitems : ∀ ss ∈ items, IsPattern ss) {n : Nat}
    (hn : (separatedBy (.mark ",") items).length < n) :
    Takes (listed ")" (alternatives (patternOperand n))) (separatedBy (.mark ",") items ++ [.mark ")"])
      fun _ => True := by
  refine takes_listed [] (fun ss hss => ?_) (by decide) (.inl rfl) fun ts hts => alternatives_closed (hts.mono (by decide)) n
  have hlength := length_le_separatedBy (.mark ",") hss
  exact ((hitems ss hss).takes_alternatives (by omega)).mono fun rest hrest => hrest.clear (by decide)

theorem isPattern_tuple {items : List (List Shape)} (hitems : ∀ ss ∈ items, IsPattern ss) :
    IsPattern (.mark "(" :: (separatedBy (.mark ",") items ++ [.mark ")"])) := by
  refine ⟨⟨_, rfl, by simp [Shape.mark]⟩, fun n hn ts rest hfit hrest => ?_⟩
  simp only [List.length_cons, List.length_append, List.length_nil] at hn
  obtain ⟨n, rfl⟩ := Nat.exists_eq_succ_of_ne_zero (Nat.ne_zero_of_lt hn)
  obtain ⟨gap, commented, us, rfl, hus⟩ := fit_mark.mp hfit
  obtain ⟨as, has⟩ := takes_patterns hitems (n := n) (by omega) us rest hus trivial
  refine ⟨(), ?_⟩
  rw [patternOperand]
  simp [has]

/-- A name with patterns in parentheses. -/
theorem isPattern_call {x : String} (hx : x ∉ patternWords) {items : List (List Shape)}
    (hitems : ∀ ss ∈ items, IsPattern ss) :
    IsPattern (.word x :: .mark "(" :: (separatedBy (.mark ",") items ++ [.mark ")"])) := by
  refine ⟨⟨_, rfl, by simp [Shape.word]⟩, fun n hn ts rest hfit hrest => ?_⟩
  simp only [List.length_cons, List.length_append, List.length_nil] at hn
  obtain ⟨n, rfl⟩ := Nat.exists_eq_succ_of_ne_zero (Nat.ne_zero_of_lt hn)
  obtain ⟨gap, commented, us, rfl, hus⟩ := fit_word.mp hfit
  obtain ⟨gap', commented', vs, rfl, hvs⟩ := fit_mark.mp hus
  obtain ⟨as, has⟩ := takes_patterns hitems (n := n) (by omega) vs rest hvs trivial
  have hpath : repeated (do mark "::"; name) (⟨.mark, "(", gap', commented'⟩ :: (vs ++ rest)) =
      ([], ⟨.mark, "(", gap', commented'⟩ :: (vs ++ rest)) :=
    repeated_none (by simp)
  simp only [patternWords, List.mem_cons, List.not_mem_nil, or_false, not_or] at hx
  refine ⟨(), ?_⟩
  rw [patternOperand]
  simp [pathPattern, separated, hpath, hx, has]

theorem IsPattern.takes_pattern {ss : List Shape} (h : IsPattern ss) :
    Takes pattern ss (Clear ("|" :: patternMarks)) := by
  intro ts rest hfit hrest
  refine h.takes_alternatives ?_ ts rest hfit hrest
  rw [List.length_append, hfit.length_eq]
  omega

theorem IsPattern.takes_simplePattern {ss : List Shape} (h : IsPattern ss) :
    Takes simplePattern ss (Clear patternMarks) := by
  intro ts rest hfit hrest
  refine h.reads _ ?_ ts rest hfit hrest
  rw [List.length_append, hfit.length_eq]
  omega

end Names

end TraitMock.Syntax.Reader
