import TraitMock.Proofs.Syntax.FunctionTypes

namespace TraitMock.Syntax.Reader

section Bounds

/-- Shapes that are read as generic parameters. -/
structure IsGenerics (ss : List Shape) : Prop where
  angle : ∃ us, ss = .mark "<" :: us
  balanced : Balanced ss
  reads : ∀ n, 10 * ss.length ≤ n → Takes (genericParameters n) ss fun _ => True

theorem IsGenerics.flat {ss : List Shape} (h : IsGenerics ss) : Flat ss := by
  obtain ⟨us, rfl⟩ := h.angle
  have hus : Balanced us := by
    generalize hss : Shape.mark "<" :: us = ss at h
    have hbalanced := h.balanced
    cases hbalanced with
    | nil => cases hss
    | cons _ hrest =>
      obtain ⟨-, rfl⟩ := List.cons.inj hss
      exact hrest
    | group hclose _ _ =>
      have hmark := congrArg Shape.text (List.cons.inj hss).1
      simp only [Shape.mark] at hmark
      rw [← hmark] at hclose
      cases hclose
  exact .angle hus

private theorem takes_lifetimeParameter (l : String) {n : Nat} (hn : 0 < n) :
    Takes (genericParameter n) [⟨.lifetime, l, false⟩] (Starts [",", ">"]) := by
  intro ts rest hfit hrest
  obtain ⟨n, rfl⟩ := Nat.exists_eq_succ_of_ne_zero (Nat.ne_of_gt hn)
  obtain ⟨gap, commented, us, rfl, hus⟩ := fit_shape.mp hfit
  obtain rfl := fit_nil.mp hus
  have hattributes : repeated outerAttribute (⟨.lifetime, l, gap, commented⟩ :: rest) =
      ([], ⟨.lifetime, l, gap, commented⟩ :: rest) := repeated_none (outerAttribute_eq_none (by simp) rest)
  have hbounds : Clear [":"] rest := hrest.clear (by decide)
  refine ⟨true, ?_⟩
  rw [genericParameter]
  simp [hattributes, hbounds.isMark (m := ":") (by simp)]

private theorem genericParameter_closed {ts : List Token} (h : Starts [">"] ts) (n : Nat) : genericParameter n ts = none := by
  obtain ⟨⟨kind, text, gap, commented⟩, after, rfl, rfl, hmem⟩ := h
  obtain rfl : text = ">" := by simpa using hmem
  cases n with
  | zero => rfl
  | succ n =>
    have hattributes : repeated outerAttribute (⟨.mark, ">", gap, commented⟩ :: after) =
        ([], ⟨.mark, ">", gap, commented⟩ :: after) := repeated_none (outerAttribute_eq_none (by simp) after)
    rw [genericParameter]
    simp [hattributes]

theorem isGenerics_lifetimes {ls : List String} {comma : List Shape} (hne : ls ≠ [])
    (hcomma : comma = [] ∨ comma = [.mark ","]) : IsGenerics (lifetimeShapes ls comma) := by
  have hinner : ∀ l : String, Balanced [(⟨.lifetime, l, false⟩ : Shape)] := fun l => .cons (fun h => nomatch h.1) .nil
  have hlist : Balanced (separatedBy (.mark ",") (ls.map fun l => [⟨.lifetime, l, false⟩])) :=
    balanced_separatedBy (by simp [hinner]) (isFlat_mark (by decide)).isInner
  have hend : Balanced (comma ++ [.mark ">"]) := by
    have hclose : Balanced [.mark ">"] := .cons (isFlat_mark (by decide)).isInner .nil
    rcases hcomma with rfl | rfl
    · exact hclose
    · exact .cons (isFlat_mark (by decide)).isInner hclose
  refine ⟨⟨_, rfl⟩, .cons (isFlat_mark (by decide)).isInner (hlist.append hend), fun n hn ts rest hfit _ => ?_⟩
  simp only [lifetimeShapes, List.length_cons, List.length_append] at hn
  obtain ⟨n, rfl⟩ := Nat.exists_eq_add_of_le' (show 2 ≤ n by omega)
  obtain ⟨gap, commented, us, rfl, hus⟩ := fit_mark.mp hfit
  have hparams : ∀ ss ∈ ls.map (fun l => [(⟨.lifetime, l, false⟩ : Shape)]),
      Takes (genericParameter (n + 1)) ss (Starts [",", ">"]) := by
    intro ss hss
    obtain ⟨l, -, rfl⟩ := List.mem_map.mp hss
    exact takes_lifetimeParameter l (Nat.succ_pos n)
  obtain ⟨as, has⟩ := takes_listed1 comma (by simpa using hne) hparams (by decide)
    (hcomma.imp_right fun h => ⟨h, fun ts hts => genericParameter_closed hts (n + 1)⟩) us rest hus trivial
  refine ⟨(), ?_⟩
  rw [genericParameters]
  simp [has]

/-- Shapes that are read as the first of some joined bounds. -/
structure IsBound (ss : List Shape) : Prop where
  flat : Flat ss
  reads : ∀ n, 10 * ss.length ≤ n → Takes (bound n) ss (Ends typeMarks)

theorem isBound_path {segs : List String} (hsegs : IsTypePath segs) {items : List (List Shape)}
    (hitems : ∀ us ∈ items, IsArgument us) (hprimitive : ∀ w, segs = [w] → w ∉ primitives) :
    IsBound (pathShapes segs ++ argsShapes items) := by
  refine ⟨(flat_pathShapes segs).append (flat_argsShapes hitems), fun n hn ts rest hfit hrest => ?_⟩
  obtain ⟨first, more, rfl⟩ := List.exists_cons_of_ne_nil hsegs.ne_nil
  have hpos : 0 < (pathShapes (first :: more) ++ argsShapes items).length := by simp [pathShapes]
  obtain ⟨n, rfl⟩ := Nat.exists_eq_succ_of_ne_zero (n := n) (by omega)
  obtain ⟨t, ht, hread⟩ := takes_namedType hsegs hitems (n := n) (by omega) ts rest hfit hrest
  have hfirst : first ∉ typeWords := hsegs.head first rfl
  simp only [typeWords, List.mem_cons, List.not_mem_nil, or_false, not_or] at hfirst
  obtain ⟨gap, commented, us, rfl, -⟩ := fit_word.mp hfit
  rw [List.cons_append] at hread ⊢
  refine ⟨t, ?_⟩
  rw [bound]
  simp only [run_bind, run_isWord, run_isMark, Option.bind_some, run_ite, hread]
  cases t with
  | primitive w => exact absurd ht.2 (hprimitive w ht.1)
  | other text => exact absurd ht id
  | _ => simp [hfirst]

theorem isBound_function {callee : List Shape} (hcallee : IsCallee callee) {params : List (List Shape)}
    (hparams : ∀ ss ∈ params, IsType ss) {result : List Shape} (hresult : IsResult result) :
    IsBound (callee ++ callShapes params result) := by
  refine ⟨(flat_callee hcallee).append (flat_callShapes hparams hresult), fun n hn ts rest hfit hrest => ?_⟩
  have hnamed {n : Nat} := takes_namedFunction (n := n) .nil hcallee hparams hresult
  obtain ⟨w, us, rfl, hword⟩ := hcallee.exists_word
  simp only [List.mem_cons, List.not_mem_nil, or_false, not_or] at hword
  rw [List.length_append, List.length_cons] at hn
  obtain ⟨n, rfl⟩ := Nat.exists_eq_succ_of_ne_zero (n := n) (by omega)
  obtain ⟨t, ⟨head, ps, r, text, rfl⟩, hread⟩ := hnamed (n := n)
    (by rw [List.nil_append, List.length_append, List.length_cons]; omega) ts rest hfit hrest
  obtain ⟨gap, commented, vs, rfl, -⟩ := fit_word.mp hfit
  rw [List.cons_append] at hread ⊢
  refine ⟨.function head ps r text, ?_⟩
  rw [bound]
  simp [hword, hread]

theorem isBound_parenthesized {items : List (List Shape)} (hne : items ≠ []) (hitems : ∀ us ∈ items, IsType us)
    {comma : List Shape} (hcomma : comma = [] ∨ comma = [.mark ","]) :
    IsBound (.mark "(" :: (separatedBy (.mark ",") items ++ (comma ++ [.mark ")"]))) := by
  have hboth : comma = [] ∨ items ≠ [] ∧ comma = [.mark ","] := hcomma.imp_right fun h => ⟨hne, h⟩
  refine ⟨(isSingle_parenthesized hitems hboth).flat, fun n hn ts rest hfit hrest => ?_⟩
  simp only [List.length_cons, List.length_append, List.length_nil] at hn
  obtain ⟨n, rfl⟩ := Nat.exists_eq_succ_of_ne_zero (n := n) (by omega)
  obtain ⟨t, ⟨-, ht⟩, hread⟩ := takes_parenthesized hitems hboth (n := n) (by omega) ts rest hfit trivial
  obtain ⟨gap, commented, us, rfl, -⟩ := fit_mark.mp hfit
  rw [List.cons_append] at hread ⊢
  refine ⟨t, ?_⟩
  rw [bound]
  simp only [run_bind, run_isWord, run_isMark, Option.bind_some, run_ite, hread]
  split
  · simp_all
  · rw [if_pos (by simp)]
    split
    · exact absurd rfl (ht hne)
    · rfl

theorem exists_textSince (start ts : List Token) : ∃ text, textSince start ts = some (text, ts) := ⟨_, rfl⟩

/-- Reads what the lifetimes `params` are quantified for; their text with `for` is `binder`. -/
def quantifiedBound (n : Nat) (start : List Token) (params binder : String) : Reader TypeExpr := do
  match ← optional functionKeyword, ← peek? with
  | some _, _ => do
    let head ← textSince start
    functionFrom n start (.keyword head)
  | none, some t =>
    if t.kind == .word && t.text != "dyn" && t.text != "impl" then
      match ← pathFrom n start (some binder) with
      | .function head ps r text => pure (.function head ps r text)
      | t => pure (.quantified params t)
    else .quantified params <$> single n
  | none, none => failure

private theorem quantified_eq (n : Nat) : quantified (n + 1) = (do
    let start ← position
    keyword "for"
    let params ← textOf (genericParameters n)
    let binder ← textSince start
    quantifiedBound n start params binder) := by
  rw [quantified]
  rfl

/-- A bound behind quantified lifetimes is read up to what is quantified. -/
theorem bound_quantified {generics : List Shape} (hgenerics : IsGenerics generics) {front : List Token}
    (hfit : Fit front (.word "for" :: generics)) {n : Nat} (hn : 10 * generics.length ≤ n) (rest : List Token) :
    ∃ params start binder, bound (n + 2) (front ++ rest) = quantifiedBound n start params binder rest := by
  obtain ⟨gap, commented, more, rfl, hmore⟩ := fit_word.mp hfit
  obtain ⟨u, hu⟩ := hgenerics.reads n hn more rest hmore trivial
  obtain ⟨params, hparams⟩ := exists_textOf hu
  obtain ⟨binder, hbinder⟩ := exists_textSince (⟨.word, "for", gap, commented⟩ :: (more ++ rest)) rest
  refine ⟨params, ⟨.word, "for", gap, commented⟩ :: (more ++ rest), binder, ?_⟩
  rw [bound, quantified_eq, List.cons_append]
  simp [-run_textOf, hparams, hbinder]

theorem isBound_quantifiedPath {generics : List Shape} (hgenerics : IsGenerics generics) {segs : List String}
    (hsegs : IsTypePath segs) {items : List (List Shape)} (hitems : ∀ us ∈ items, IsArgument us) :
    IsBound (.word "for" :: generics ++ (pathShapes segs ++ argsShapes items)) := by
  refine ⟨(Flat.cons (isFlat_word _) hgenerics.flat).append ((flat_pathShapes segs).append (flat_argsShapes hitems)),
    fun n hn ts rest hfit hrest => ?_⟩
  rw [List.length_append, List.length_cons] at hn
  obtain ⟨n, rfl⟩ := Nat.exists_eq_add_of_le' (show 2 ≤ n by omega)
  obtain ⟨front, back, hfront, hback, rfl⟩ := fit_append.mp hfit
  obtain ⟨params, start, binder, hbound⟩ := bound_quantified hgenerics hfront (n := n) (by omega) (back ++ rest)
  have hfunction := functionKeyword_path hsegs hback (hrest.mono (by decide))
  obtain ⟨t, ht, hread⟩ := takes_pathFrom hsegs hitems (n := n) (by omega) start (some binder) back rest hback hrest
  obtain ⟨first, others, rfl⟩ := List.exists_cons_of_ne_nil hsegs.ne_nil
  have hfirst : first ∉ typeWords := hsegs.head first rfl
  simp only [typeWords, List.mem_cons, List.not_mem_nil, or_false, not_or] at hfirst
  refine ⟨.quantified params t, ?_⟩
  rw [List.append_assoc, hbound]
  obtain ⟨gap', commented', us, rfl, -⟩ := fit_word.mp hback
  rw [List.cons_append] at hread hfunction ⊢
  simp only [quantifiedBound, run_bind, run_optional, hfunction, Option.bind_some, run_peek, List.head?_cons, run_ite,
    hread]
  cases t with
  | function head ps r text => exact absurd ht id
  | _ => simp [hfirst]

theorem isBound_quantifiedFunction {generics : List Shape} (hgenerics : IsGenerics generics) {callee : List Shape}
    (hcallee : IsCallee callee) {params : List (List Shape)} (hparams : ∀ ss ∈ params, IsType ss)
    {result : List Shape} (hresult : IsResult result) :
    IsBound (.word "for" :: generics ++ (callee ++ callShapes params result)) := by
  refine ⟨(Flat.cons (isFlat_word _) hgenerics.flat).append ((flat_callee hcallee).append
    (flat_callShapes hparams hresult)), fun n hn ts rest hfit hrest => ?_⟩
  rw [List.length_append, List.length_cons, List.length_append] at hn
  obtain ⟨n, rfl⟩ := Nat.exists_eq_add_of_le' (show 2 ≤ n by omega)
  obtain ⟨front, back, hfront, hback, rfl⟩ := fit_append.mp hfit
  obtain ⟨names, start, binder, hbound⟩ := bound_quantified hgenerics hfront (n := n) (by omega) (back ++ rest)
  rw [List.append_assoc, hbound]
  cases hcallee with
  | @keyword mods hmods =>
    obtain ⟨words, call, hwords, hcall, rfl⟩ := fit_append.mp hback
    obtain ⟨u, hu⟩ := takes_functionKeyword hmods words (call ++ rest) hwords trivial
    obtain ⟨text, htext⟩ := exists_textSince start (call ++ rest)
    obtain ⟨t, -, hread⟩ := takes_functionFrom hparams hresult (n := n) (by omega) start (.keyword text) call rest hcall hrest
    refine ⟨t, ?_⟩
    rw [List.append_assoc]
    simp only [quantifiedBound, run_bind, run_optional, hu, Option.bind_some, run_peek, htext, hread]
  | @path segs hsegs =>
    obtain ⟨t, ⟨head, ps, r, text, rfl⟩, hread⟩ := takes_pathCall hsegs hparams hresult (n := n)
      (by rw [List.length_append]; omega) start (some binder) back rest hback hrest
    have hnone : functionKeyword (back ++ rest) = none := by
      obtain ⟨path, call, hpath, hcall, rfl⟩ := fit_append.mp hback
      have hpath : Fit path (pathShapes segs ++ argsShapes []) := by simpa [argsShapes] using hpath
      rw [List.append_assoc]
      exact functionKeyword_path hsegs hpath (ends_callShapes hcall rest)
    obtain ⟨first, others, rfl⟩ := List.exists_cons_of_ne_nil hsegs.ne_nil
    have hfirst : first ∉ typeWords := hsegs.head first rfl
    simp only [typeWords, List.mem_cons, List.not_mem_nil, or_false, not_or] at hfirst
    obtain ⟨gap', commented', us, rfl, -⟩ := fit_word.mp hback
    rw [List.cons_append] at hread hnone ⊢
    refine ⟨.function head ps r text, ?_⟩
    simp only [quantifiedBound, run_bind, run_optional, hnone, Option.bind_some, run_peek, List.head?_cons, run_ite,
      hread]
    simp [hfirst]

theorem isSingle_dyn {ss : List Shape} (h : IsBound ss) : IsSingle typeMarks (.word "dyn" :: ss) := by
  refine ⟨⟨.word "dyn", rfl, .inl ⟨rfl, by decide⟩⟩, .cons (isFlat_word _) h.flat,
    fun ts rest hfit => noSelf_word (by decide) hfit, fun n hn ts rest hfit hrest => ?_⟩
  rw [List.length_cons] at hn
  obtain ⟨n, rfl⟩ := Nat.exists_eq_succ_of_ne_zero (n := n) (by omega)
  obtain ⟨gap, commented, us, rfl, hus⟩ := fit_word.mp hfit
  obtain ⟨t, hread⟩ := h.reads n (by omega) us rest hus hrest
  refine ⟨.dynamic t, nofun, ?_⟩
  rw [single]
  simp [hread]

theorem isSingle_impl {ss : List Shape} (h : IsBound ss)
    (hhead : ∃ s ∈ ss.head?, s.kind = .word ∧ s.text ≠ "for" ∨ s.kind = .mark ∧ s.text = "(") :
    IsSingle typeMarks (.word "impl" :: ss) := by
  refine ⟨⟨.word "impl", rfl, .inl ⟨rfl, by decide⟩⟩, .cons (isFlat_word _) h.flat,
    fun ts rest hfit => noSelf_word (by decide) hfit, fun n hn ts rest hfit hrest => ?_⟩
  rw [List.length_cons] at hn
  obtain ⟨n, rfl⟩ := Nat.exists_eq_succ_of_ne_zero (n := n) (by omega)
  obtain ⟨gap, commented, us, rfl, hus⟩ := fit_word.mp hfit
  obtain ⟨t, hread⟩ := h.reads n (by omega) us rest hus hrest
  obtain ⟨s, hs, hkind⟩ := hhead
  obtain ⟨ss, rfl⟩ := List.head?_eq_some_iff.mp hs
  obtain ⟨u, vs, ⟨hu, htext, _⟩, -, rfl⟩ := fit_cons.mp hus
  rw [← hu, ← htext] at hkind
  rw [List.cons_append] at hread
  refine ⟨.abstract t, nofun, ?_⟩
  rw [single]
  rcases hkind with ⟨hword, hfor⟩ | ⟨hmark, hparen⟩
  · simp [hword, hfor, hread]
  · simp [hmark, hparen, hread]

theorem single_relaxed {ss : List Shape} (h : IsSingle typeMarks ss) {n : Nat} (hn : 10 * (ss.length + 1) ≤ n) :
    Takes (single n) (.mark "?" :: ss) (Ends typeMarks) := by
  intro ts rest hfit hrest
  obtain ⟨n, rfl⟩ := Nat.exists_eq_succ_of_ne_zero (n := n) (by omega)
  obtain ⟨gap, commented, us, rfl, hus⟩ := fit_mark.mp hfit
  obtain ⟨t, -, hread⟩ := h.reads n (by omega) us rest hus hrest
  have hinner : (do mark "?"; single n) (⟨.mark, "?", gap, commented⟩ :: (us ++ rest)) = some (t, rest) := by
    simp [hread]
  obtain ⟨text, htext⟩ := exists_withText hinner
  refine ⟨.relaxed t text, ?_⟩
  rw [single]
  simp [htext, -run_withText]

theorem isOperand_relaxed {ss : List Shape} (h : IsSingle typeMarks ss) : IsOperand (.mark "?" :: ss) := by
  refine ⟨.cons (isFlat_mark (by decide)) h.flat, fun n hn ts rest hfit hrest => ?_⟩
  rw [List.length_cons] at hn
  obtain ⟨n, rfl⟩ := Nat.exists_eq_succ_of_ne_zero (n := n) (by omega)
  obtain ⟨t, hread⟩ := single_relaxed h (n := n) (by omega) ts rest hfit hrest
  obtain ⟨gap, commented, us, rfl, -⟩ := fit_mark.mp hfit
  rw [List.cons_append] at hread
  exact ⟨t, by rw [operand]; simp [hread]⟩

theorem isSingle_implRelaxed {ss : List Shape} (h : IsSingle typeMarks ss) :
    IsSingle typeMarks (.word "impl" :: .mark "?" :: ss) := by
  refine ⟨⟨.word "impl", rfl, .inl ⟨rfl, by decide⟩⟩,
    .cons (isFlat_word _) (.cons (isFlat_mark (by decide)) h.flat),
    fun ts rest hfit => noSelf_word (by decide) hfit, fun n hn ts rest hfit hrest => ?_⟩
  simp only [List.length_cons] at hn
  obtain ⟨n, rfl⟩ := Nat.exists_eq_succ_of_ne_zero (n := n) (by omega)
  obtain ⟨gap, commented, us, rfl, hus⟩ := fit_word.mp hfit
  obtain ⟨t, hread⟩ := single_relaxed h (n := n) (by omega) us rest hus hrest
  obtain ⟨gap', commented', vs, rfl, -⟩ := fit_mark.mp hus
  rw [List.cons_append] at hread
  refine ⟨.abstract t, nofun, ?_⟩
  rw [single]
  simp [hread]

/-- Bounds of which the first one is a lifetime, and not the only one. -/
theorem takes_lifetimeSum (l : String) {first : List Shape} {more : List (List Shape)}
    (hmore : ∀ us ∈ first :: more, IsOperand us) {n : Nat}
    (hn : 10 * (plusShapes (first :: more)).length + 2 ≤ n) :
    Takes (typeUpTo n) (⟨.lifetime, l, false⟩ :: plusShapes (first :: more)) (Ends sumMarks) := by
  intro ts rest hfit hrest
  obtain ⟨n, rfl⟩ := Nat.exists_eq_add_of_le' (show 2 ≤ n by omega)
  obtain ⟨gap, commented, us, rfl, hus⟩ := fit_shape.mp hfit
  obtain ⟨front, back, hfront, hback, rfl⟩ := fit_append.mp hus
  obtain ⟨gap', commented', vs, rfl, hvs⟩ := fit_mark.mp hfront
  have hplus : ∀ rest, Ends sumMarks rest → (do mark "+"; operand (n + 1)) rest = none := fun rest hrest => by
    simp [hrest.clear.mark (m := "+") (by decide)]
  have hoperands : ∀ us ∈ first :: more, Takes (operand (n + 1)) us (Ends typeMarks) := by
    intro us hus
    have hlength := length_le_plusShapes hus
    exact (hmore us hus).reads (n + 1) (by omega)
  obtain ⟨hfirst, hothers⟩ := List.forall_mem_cons.mp hoperands
  obtain ⟨as, has⟩ := takes_more (fun us hus => (hothers us hus).mono fun rest hrest =>
    hrest.elim (·.ends (by decide)) (·.mono (by decide))) hplus back rest hback hrest
  obtain ⟨a, ha⟩ := hfirst vs (back ++ rest) hvs (ends_plusShapes hback hrest)
  have hone : (do mark "+"; operand (n + 1)) (⟨.mark, "+", gap', commented'⟩ :: (vs ++ (back ++ rest))) =
      some (a, back ++ rest) := by simp [ha]
  have hlist : repeated (do mark "+"; operand (n + 1)) (⟨.mark, "+", gap', commented'⟩ :: (vs ++ (back ++ rest))) =
      (a :: as, rest) := by
    rw [repeated_some hone (by simp only [List.length_cons, List.length_append]; omega), Option.some.inj has]
  have hlifetime (ts : List Token) : operand (n + 1) (⟨.lifetime, l, gap, commented⟩ :: ts) = some (.lifetime l, ts) := by
    rw [operand]
    simp
  refine ⟨(a :: as).foldl .sum (.lifetime l), ?_⟩
  rw [typeUpTo]
  simp [hlifetime, hlist]

/-- Bounds behind `impl` of which the first one is a lifetime. All of them belong to it. -/
theorem isSingle_implLifetime (l : String) {first : List Shape} {more : List (List Shape)}
    (hmore : ∀ us ∈ first :: more, IsOperand us) :
    IsSingle sumMarks (.word "impl" :: ⟨.lifetime, l, false⟩ :: plusShapes (first :: more)) := by
  refine ⟨⟨.word "impl", rfl, .inl ⟨rfl, by decide⟩⟩, .cons (isFlat_word _) (.cons (fun h => by cases h.1)
    (flat_plusShapes fun us hus => (hmore us hus).flat)), fun ts rest hfit => noSelf_word (by decide) hfit,
    fun n hn ts rest hfit hrest => ?_⟩
  simp only [List.length_cons] at hn
  obtain ⟨n, rfl⟩ := Nat.exists_eq_succ_of_ne_zero (n := n) (by omega)
  obtain ⟨gap, commented, us, rfl, hus⟩ := fit_word.mp hfit
  obtain ⟨t, hread⟩ := takes_lifetimeSum l hmore (n := n) (by omega) us rest hus hrest
  obtain ⟨gap', commented', vs, rfl, -⟩ := fit_shape.mp hus
  rw [List.cons_append] at hread
  refine ⟨.abstract t, nofun, ?_⟩
  rw [single]
  simp [hread]

end Bounds

section Arguments

/-- A literal, or a block in braces, as an argument. -/
def constArgument : Reader Unit := constLiteral <|> group "\x7b"

/-- Tokens that are copied into an argument as a constant. -/
structure IsConst (ss : List Shape) : Prop where
  flat : Flat ss
  reads : Takes constArgument ss (Starts [",", ">"])

theorem constArgument_eq_none {t : Token}
    (h : t.kind = .word ∧ t.text ∉ ["true", "false"] ∨ t.kind = .mark ∧ t.text ≠ "\x7b" ∨ t.kind = .lifetime)
    (rest : List Token) : constArgument (t :: rest) = none := by
  rcases h with ⟨hkind, htext⟩ | ⟨hkind, htext⟩ | hkind
  · simp only [List.mem_cons, List.not_mem_nil, or_false, not_or] at htext
    simp [constArgument, constLiteral, group, hkind, htext]
  · simp [constArgument, constLiteral, group, hkind, htext]
  · simp [constArgument, constLiteral, group, hkind]

theorem plainArgument_eq (n : Nat) : plainArgument (n + 1) = (do
    let start ← position
    match ← optional (textOf constArgument) with
    | some text => pure (.const text)
    | none =>
      match ← optional (typeUpTo n) with
      | some t => do
        if ← isMark "=" then
          mark "="
          let bound ← typeUpTo n
          let text ← textSince start
          match t with
          | .named ⟨x, true⟩ => pure (.binding x bound)
          | .generic ⟨_, true⟩ _ => pure (.genericBinding text)
          | _ => failure
        else pure (.type t)
      | none =>
        (.lifetime <$> lifetime) <|> ((.type ∘ .other) <$> textOf (tokenThat (·.kind == .rawString)))) := by
  rw [plainArgument]
  rfl

/-- An argument without bounds behind it. -/
theorem IsArgument.of_plain {ss : List Shape} (hflat : Flat ss)
    (h : ∀ n, 10 * ss.length + 3 ≤ n → Takes (plainArgument n) ss (Starts [",", ">"])) : IsArgument ss := by
  refine ⟨hflat, fun n hn ts rest hfit hrest => ?_⟩
  obtain ⟨n, rfl⟩ := Nat.exists_eq_succ_of_ne_zero (n := n) (by omega)
  obtain ⟨a, ha⟩ := h n (by omega) ts rest hfit hrest
  have hcolon : Clear [":"] rest := hrest.clear (by decide)
  refine ⟨[a], ?_⟩
  rw [argument]
  simp [ha, hcolon.isMark (m := ":") (by simp)]

private theorem constArgument_type {ss : List Shape} (h : ∃ s ∈ ss.head?, StartsType s) {ts : List Token} (hfit : Fit ts ss)
    (rest : List Token) : constArgument (ts ++ rest) = none := by
  obtain ⟨t, us, rfl, ht⟩ := exists_head h hfit
  refine constArgument_eq_none ?_ _
  rcases ht with ⟨hkind, htext⟩ | ⟨hkind, htext⟩
  · simp only [List.mem_cons, List.not_mem_nil, or_false, not_or] at htext
    exact .inl ⟨hkind, by simp [htext]⟩
  · refine .inr (.inl ⟨hkind, fun heq => ?_⟩)
    rw [heq] at htext
    revert htext
    decide

theorem isArgument_type {ss : List Shape} (h : IsType ss) : IsArgument ss := by
  refine .of_plain h.flat fun n hn ts rest hfit hrest => ?_
  obtain ⟨n, rfl⟩ := Nat.exists_eq_succ_of_ne_zero (n := n) (by omega)
  obtain ⟨t, hread⟩ := h.reads n (by omega) ts rest hfit (hrest.ends (by decide))
  have hequal : Clear ["="] rest := hrest.clear (by decide)
  refine ⟨.type t, ?_⟩
  rw [plainArgument_eq]
  simp [constArgument_type h.start hfit rest, hread, hequal.isMark (m := "=") (by simp)]

theorem isArgument_lifetime (l : String) : IsArgument [⟨.lifetime, l, false⟩] := by
  refine .of_plain (.cons (fun h => by cases h.1) .nil) fun n hn ts rest hfit hrest => ?_
  obtain ⟨n, rfl⟩ := Nat.exists_eq_add_of_le' (show 3 ≤ n by omega)
  obtain ⟨gap, commented, us, rfl, hus⟩ := fit_shape.mp hfit
  obtain rfl := fit_nil.mp hus
  have hconst := constArgument_eq_none (t := ⟨.lifetime, l, gap, commented⟩) (.inr (.inr rfl)) rest
  have hplus : Clear ["+"] rest := hrest.clear (by decide)
  have hoperand : operand (n + 1) (⟨.lifetime, l, gap, commented⟩ :: rest) = some (.lifetime l, rest) := by
    rw [operand]
    simp
  have hmore : repeated (do mark "+"; operand (n + 1)) rest = ([], rest) :=
    repeated_none (by simp [hplus.mark (m := "+") (by simp)])
  have htype : typeUpTo (n + 1 + 1) (⟨.lifetime, l, gap, commented⟩ :: rest) = none := by
    rw [typeUpTo]
    simp [hoperand, hmore]
  refine ⟨.lifetime l, ?_⟩
  rw [plainArgument_eq]
  simp [hconst, htype]

/-- A name that can stand for a type. -/
theorem typeUpTo_name {x : String} (hx : IsTypePath [x]) (hprimitive : x ∉ primitives) {n : Nat} (hn : 12 ≤ n)
    {gap : String} {commented : Bool} {rest : List Token} (hrest : Ends sumMarks rest) :
    typeUpTo n (⟨.word, x, gap, commented⟩ :: rest) = some (.named ⟨x, true⟩, rest) := by
  obtain ⟨n, rfl⟩ := Nat.exists_eq_add_of_le' (show 3 ≤ n by omega)
  have hfit : Fit [⟨.word, x, gap, commented⟩] (pathShapes [x] ++ argsShapes []) :=
    fit_word.mpr ⟨gap, commented, [], rfl, fit_nil.mpr rfl⟩
  have hargs : ∀ ss ∈ ([] : List (List Shape)), IsArgument ss := by simp
  obtain ⟨t, ht, hread⟩ := takes_namedType hx hargs (n := n) (by simp [pathShapes, argsShapes]; omega) _ rest hfit
    (hrest.mono (by decide))
  have hfirst : x ∉ typeWords := hx.head x rfl
  simp only [typeWords, List.mem_cons, List.not_mem_nil, or_false, not_or] at hfirst
  have hvalue : t = .named ⟨x, true⟩ := by
    cases t with
    | named path => rw [ht.2 x rfl]
    | generic _ _ => exact absurd ht (by simp [IsPathType])
    | primitive w =>
      obtain ⟨hw, hmem⟩ := ht
      obtain rfl := (List.cons.inj hw).1
      exact absurd hmem hprimitive
    | _ => exact absurd ht id
  have hoperand : operand (n + 2) (⟨.word, x, gap, commented⟩ :: rest) = some (.named ⟨x, true⟩, rest) := by
    rw [operand]
    simp only [run_bind, run_peek, List.head?_cons, Option.bind_some]
    simpa [hfirst, single_word hfirst.1 hfirst.2.1, hvalue] using hread
  have hmore : repeated (do mark "+"; operand (n + 2)) rest = ([], rest) :=
    repeated_none (by simp [hrest.clear.mark (m := "+") (by decide)])
  rw [typeUpTo]
  simp [hoperand, hmore]

/-- A type that an associated type is equal to. -/
theorem isArgument_binding {x : String} (hx : IsTypePath [x]) (hprimitive : x ∉ primitives) {ss : List Shape}
    (h : IsType ss) : IsArgument (.word x :: .mark "=" :: ss) := by
  refine .of_plain (.cons (isFlat_word _) (.cons (isFlat_mark (by decide)) h.flat)) fun n hn ts rest hfit hrest => ?_
  simp only [List.length_cons] at hn
  obtain ⟨n, rfl⟩ := Nat.exists_eq_succ_of_ne_zero (n := n) (by omega)
  obtain ⟨gap, commented, us, rfl, hus⟩ := fit_word.mp hfit
  obtain ⟨gap', commented', vs, rfl, hvs⟩ := fit_mark.mp hus
  have hfirst : x ∉ typeWords := hx.head x rfl
  simp only [typeWords, List.mem_cons, List.not_mem_nil, or_false, not_or] at hfirst
  have hconst := constArgument_eq_none (t := ⟨.word, x, gap, commented⟩) (.inl ⟨rfl, by simp [hfirst]⟩)
    (⟨.mark, "=", gap', commented'⟩ :: (vs ++ rest))
  have hends : Ends sumMarks (⟨.mark, "=", gap', commented'⟩ :: (vs ++ rest)) := ends_mark (by decide)
  have hname : typeUpTo n (⟨.word, x, gap, commented⟩ :: _) = _ := typeUpTo_name hx hprimitive (by omega) hends
  obtain ⟨t, hread⟩ := h.reads n (by omega) vs rest hvs (hrest.ends (by decide))
  refine ⟨.binding x t, ?_⟩
  rw [plainArgument_eq]
  simp [hconst, hname, hread, textSince]

theorem isArgument_const {ss : List Shape} (h : IsConst ss) : IsArgument ss := by
  refine .of_plain h.flat fun n hn ts rest hfit hrest => ?_
  obtain ⟨n, rfl⟩ := Nat.exists_eq_succ_of_ne_zero (n := n) (by omega)
  obtain ⟨u, hu⟩ := h.reads ts rest hfit hrest
  obtain ⟨text, htext⟩ := exists_textOf hu
  refine ⟨.const text, ?_⟩
  rw [plainArgument_eq]
  simp [htext, -run_textOf]

end Arguments

end TraitMock.Syntax.Reader
