import TraitMock.Proofs.Syntax.Types

namespace TraitMock.Syntax.Reader

section Functions

/-- The words in front of `fn`. -/
inductive IsModifier : List Shape → Prop where
  | word {w : String} (hw : w ∈ modifierWords) : IsModifier [.word w]
  | foreign : IsModifier [.word "extern"]
  | interface {kind : TokenKind} (hkind : kind = .string ∨ kind = .rawString) (name : String) :
    IsModifier [.word "extern", ⟨kind, name, false⟩]

/-- A word comes next. -/
def StartsWord (rest : List Token) : Prop := ∃ t after, rest = t :: after ∧ t.kind = .word

private theorem startsWord_of_fit {w : String} {ts : List Token} {ss : List Shape} (hfit : Fit ts (.word w :: ss))
    (rest : List Token) : StartsWord (ts ++ rest) := by
  obtain ⟨gap, commented, us, rfl, -⟩ := fit_word.mp hfit
  exact ⟨_, us ++ rest, rfl, rfl⟩

theorem IsModifier.exists_word {ss : List Shape} (h : IsModifier ss) :
    ∃ w us, ss = .word w :: us ∧ w ∈ "extern" :: modifierWords := by
  cases h with
  | word hw => exact ⟨_, [], rfl, List.mem_cons_of_mem _ hw⟩
  | foreign => exact ⟨_, [], rfl, List.mem_cons_self⟩
  | interface _ name => exact ⟨_, _, rfl, List.mem_cons_self⟩

private theorem takes_modifier {ss : List Shape} (h : IsModifier ss) : Takes modifier ss StartsWord := by
  rintro ts rest hfit ⟨⟨kind, text, gap', commented'⟩, after, rfl, rfl⟩
  refine ⟨(), ?_⟩
  cases h with
  | @word w hw =>
    obtain ⟨gap, commented, us, rfl, hus⟩ := fit_word.mp hfit
    obtain rfl := fit_nil.mp hus
    have hne : w ≠ "extern" := by
      rintro rfl
      revert hw
      decide
    simp [modifier, externModifier, hne, hw]
  | foreign =>
    obtain ⟨gap, commented, us, rfl, hus⟩ := fit_word.mp hfit
    obtain rfl := fit_nil.mp hus
    simp [modifier, externModifier]
  | interface hkind name =>
    obtain ⟨gap, commented, us, rfl, hus⟩ := fit_word.mp hfit
    obtain ⟨gap', commented', vs, rfl, hvs⟩ := fit_shape.mp hus
    obtain rfl := fit_nil.mp hvs
    rcases hkind with rfl | rfl <;> simp [modifier, externModifier]

theorem modifier_fn {gap : String} {commented : Bool} (rest : List Token) :
    modifier (⟨.word, "fn", gap, commented⟩ :: rest) = none := by
  simp [modifier, externModifier, modifierWords]

/-- Words in front of `fn`, at least one. -/
theorem takes_modifiers {mods : List (List Shape)} (hne : mods ≠ []) (hmods : ∀ ss ∈ mods, IsModifier ss) :
    Takes modifiers mods.flatten fun rest => StartsWord rest ∧ modifier rest = none := by
  have hitems : ∀ ss ∈ mods, ss ≠ [] ∧ Takes modifier ss StartsWord ∧ ∀ ts rest, Fit ts ss → StartsWord (ts ++ rest) := by
    intro ss hss
    obtain ⟨w, us, rfl, -⟩ := (hmods ss hss).exists_word
    exact ⟨by simp, takes_modifier (hmods _ hss), fun ts rest hfit => startsWord_of_fit hfit rest⟩
  intro ts rest hfit hrest
  obtain ⟨first, more, rfl⟩ := List.exists_cons_of_ne_nil hne
  obtain ⟨hfirst, hmore⟩ := List.forall_mem_cons.mp hitems
  obtain ⟨front, back, hfront, hback, rfl⟩ := fit_append.mp hfit
  have hnext : StartsWord (back ++ rest) := by
    cases more with
    | nil =>
      rw [fit_nil.mp hback]
      exact hrest.1
    | cons us more =>
      obtain ⟨second, others, hsecond, -, rfl⟩ := fit_append.mp hback
      rw [List.append_assoc]
      exact (List.forall_mem_cons.mp hmore).1.2.2 second _ hsecond
  obtain ⟨a, ha⟩ := hfirst.2.1 front (back ++ rest) hfront hnext
  obtain ⟨as, has⟩ := takes_many hmore back rest hback hrest
  rw [List.append_assoc, modifiers, run_textOf, run_bind, ha, Option.bind_some, run_bind, has]
  exact ⟨_, rfl⟩

theorem takes_functionKeyword {mods : List (List Shape)} (hmods : ∀ ss ∈ mods, IsModifier ss) :
    Takes functionKeyword (mods.flatten ++ [.word "fn"]) fun _ => True := by
  intro ts rest hfit _
  obtain ⟨front, back, hfront, hback, rfl⟩ := fit_append.mp hfit
  obtain ⟨gap, commented, us, rfl, hus⟩ := fit_word.mp hback
  obtain rfl := fit_nil.mp hus
  have hstop : modifier (⟨.word, "fn", gap, commented⟩ :: rest) = none := modifier_fn rest
  refine ⟨(), ?_⟩
  by_cases hne : mods = []
  · subst hne
    obtain rfl := fit_nil.mp hfront
    simp [functionKeyword, modifiers, hstop]
  · obtain ⟨a, ha⟩ := takes_modifiers hne hmods front _ hfront ⟨⟨_, rest, rfl, rfl⟩, hstop⟩
    simp [functionKeyword, ha]

/-- What the parameters of a function type may stand behind. -/
inductive IsCallee : List Shape → Prop where
  | path {segs : List String} (h : IsTypePath segs) : IsCallee (pathShapes segs)
  | keyword {mods : List (List Shape)} (hmods : ∀ ss ∈ mods, IsModifier ss) : IsCallee (mods.flatten ++ [.word "fn"])

/-- Lifetimes in angle brackets. -/
def lifetimeShapes (lifetimes : List String) (comma : List Shape) : List Shape :=
  .mark "<" :: (separatedBy (.mark ",") (lifetimes.map fun l => [⟨.lifetime, l, false⟩]) ++ (comma ++ [.mark ">"]))

/-- Nothing, or the lifetimes that a type is quantified over. -/
inductive IsBinder : List Shape → Prop where
  | nil : IsBinder []
  | lifetimes {ls : List String} {comma : List Shape} (hne : ls ≠ []) (hcomma : comma = [] ∨ comma = [.mark ","]) :
    IsBinder (.word "for" :: lifetimeShapes ls comma)

private theorem takes_forLifetimes {ls : List String} {comma : List Shape} (hne : ls ≠ [])
    (hcomma : comma = [] ∨ comma = [.mark ","]) :
    Takes forLifetimes (.word "for" :: lifetimeShapes ls comma) fun _ => True := by
  intro ts rest hfit _
  obtain ⟨gap, commented, us, rfl, hus⟩ := fit_word.mp hfit
  obtain ⟨gap', commented', vs, rfl, hvs⟩ := fit_mark.mp hus
  have hitems : ∀ ss ∈ ls.map (fun l => [(⟨.lifetime, l, false⟩ : Shape)]), Takes lifetime ss (Starts [",", ">"]) := by
    intro ss hss ts rest hfit _
    obtain ⟨l, -, rfl⟩ := List.mem_map.mp hss
    obtain ⟨gap, commented, us, rfl, hus⟩ := fit_shape.mp hfit
    obtain rfl := fit_nil.mp hus
    exact ⟨l, by simp⟩
  have hfail : ∀ ts, Starts [">"] ts → lifetime ts = none := by
    rintro ts ⟨t, after, rfl, hkind, -⟩
    simp [hkind]
  obtain ⟨as, has⟩ := takes_listed1 comma (by simpa using hne) hitems (by decide)
    (hcomma.imp_right fun h => ⟨h, hfail⟩) vs rest hvs trivial
  have hread : (do keyword "for"; mark "<"; let _ ← listed1 ">" lifetime : Reader Unit)
      (⟨.word, "for", gap, commented⟩ :: ⟨.mark, "<", gap', commented'⟩ :: vs ++ rest) = some ((), rest) := by
    simp [has]
  exact exists_textOf hread

/-- The result of a function type behind its arrow, or nothing. -/
inductive IsResult : List Shape → Prop where
  | nil : IsResult []
  | arrow {ss : List Shape} (h : IsSingle typeMarks ss) : IsResult (.mark "->" :: ss)

/-- The parameters and the result of a function type. -/
def callShapes (params : List (List Shape)) (result : List Shape) : List Shape :=
  .mark "(" :: (separatedBy (.mark ",") params ++ (.mark ")" :: result))

theorem outerAttribute_eq_none {t : Token} (h : ¬(t.kind = .mark ∧ t.text = "#")) (rest : List Token) :
    outerAttribute (t :: rest) = none := by
  simp [outerAttribute, h]

private theorem variadicParameter_eq_none {ss : List Shape} (h : IsType ss) {ts rest : List Token} (hfit : Fit ts ss)
    (hrest : Starts [",", ")"] rest) : variadicParameter (ts ++ rest) = none := by
  have hpattern := patternColon_eq_none h.flat hfit hrest
  obtain ⟨t, more, rfl, hstart⟩ := exists_head h.start hfit
  rcases hstart with ⟨hkind, htext⟩ | ⟨hkind, htext⟩
  · simp only [List.mem_cons, List.not_mem_nil, or_false, not_or] at htext
    rw [List.cons_append] at hpattern
    simp [variadicParameter, hkind, htext, hpattern]
  · have hdots : t.text ≠ "..." := by
      intro heq
      rw [heq] at htext
      revert htext
      decide
    rw [List.cons_append] at hpattern
    simp [variadicParameter, hkind, hdots, hpattern]

/-- A type as a parameter of a function type. -/
theorem takes_functionParam {ss : List Shape} (h : IsType ss) {n : Nat} (hn : 10 * ss.length + 3 ≤ n) :
    Takes (functionParam n) ss (Starts [",", ")"]) := by
  intro ts rest hfit hrest
  obtain ⟨n, rfl⟩ := Nat.exists_eq_succ_of_ne_zero (n := n) (by omega)
  obtain ⟨t, hread⟩ := h.reads n (by omega) ts rest hfit (hrest.ends (by decide))
  have hvariadic := variadicParameter_eq_none h hfit hrest
  have hpattern := patternColon_eq_none h.flat hfit hrest
  have hself := h.noSelf ts rest hfit
  obtain ⟨u, more, rfl, hstart⟩ := exists_head h.start hfit
  have hattribute : outerAttribute (u :: (more ++ rest)) = none := by
    refine outerAttribute_eq_none (fun hu => ?_) _
    rcases hstart with ⟨hkind, -⟩ | ⟨-, htext⟩
    · rw [hu.1] at hkind
      cases hkind
    · rw [hu.2] at htext
      revert htext
      decide
  have hword : ∀ w ∈ ["mut", "_"], ¬(u.kind = .word ∧ u.text = w) := by
    rintro w hw ⟨hkind, rfl⟩
    rcases hstart with ⟨-, htext⟩ | ⟨hmark, -⟩
    · exact htext (by simp only [List.mem_cons, List.not_mem_nil, or_false] at hw ⊢; tauto)
    · rw [hkind] at hmark
      cases hmark
  have hmut := hword "mut" (by decide)
  have hlone := hword "_" (by decide)
  refine ⟨some (.typed t), ?_⟩
  rw [functionParam]
  rw [List.cons_append] at hread hvariadic hpattern hself ⊢
  simp [hattribute, hvariadic, hmut, hpattern, hself, hlone, hread]

theorem typeUpTo_closed {close : String} (hclose : close ∈ [")", ">", "]"]) {ts : List Token} (h : Starts [close] ts)
    (n : Nat) : typeUpTo n ts = none := by
  obtain ⟨⟨kind, text, gap, commented⟩, after, rfl, rfl, hmem⟩ := h
  obtain rfl := List.mem_singleton.mp hmem
  simp only [List.mem_cons, List.not_mem_nil, or_false] at hclose
  rcases n with _ | _ | _ | n
  · rfl
  · rfl
  · rfl
  · rcases hclose with rfl | rfl | rfl <;> simp [typeUpTo, operand, single]

private theorem functionParam_closed {ts : List Token} (h : Starts [")"] ts) (n : Nat) : functionParam n ts = none := by
  have hpattern : patternColon ts = none := patternColon_eq_none .nil (fit_nil.mpr rfl) (h.mono (by decide))
  have htype := typeUpTo_closed (by decide) h
  obtain ⟨⟨kind, text, gap, commented⟩, after, rfl, rfl, hmem⟩ := h
  obtain rfl : text = ")" := by simpa using hmem
  cases n with
  | zero => rfl
  | succ n =>
    have hattribute := outerAttribute_eq_none (t := ⟨.mark, ")", gap, commented⟩) (by simp) after
    have hself := selfParameter_eq_none (t := ⟨.mark, ")", gap, commented⟩) (.inr ⟨rfl, by simp⟩) after
    rw [functionParam]
    simp [hattribute, variadicParameter, hpattern, hself, htype]

theorem takes_functionFrom {params : List (List Shape)} (hparams : ∀ ss ∈ params, IsType ss) {result : List Shape}
    (hresult : IsResult result) {n : Nat} (hn : 10 * (callShapes params result).length ≤ n + 9) (start : List Token)
    (head : FunctionHead) :
    TakesAs (fun t => ∃ ps r text, t = .function head ps r text) (functionFrom n start head)
      (callShapes params result) (Ends typeMarks) := by
  intro ts rest hfit hrest
  rw [callShapes] at hn hfit
  simp only [List.length_cons, List.length_append] at hn
  obtain ⟨n, rfl⟩ := Nat.exists_eq_succ_of_ne_zero (n := n) (by omega)
  obtain ⟨gap, commented, us, rfl, hus⟩ := fit_mark.mp hfit
  have hsplit : separatedBy (.mark ",") params ++ (.mark ")" :: result) =
      separatedBy (.mark ",") params ++ ([] ++ [.mark ")"]) ++ result := by simp
  rw [hsplit] at hus
  obtain ⟨list, back, hlist, hback, rfl⟩ := fit_append.mp hus
  have hitems : ∀ ss ∈ params, Takes (functionParam n) ss (Starts [",", ")"]) := by
    intro ss hss
    have hlength := length_le_separatedBy (.mark ",") hss
    exact takes_functionParam (hparams ss hss) (by omega)
  obtain ⟨ps, hps⟩ := takes_listed [] hitems (by decide) (.inl rfl) (fun ts hts => functionParam_closed hts n) list
    (back ++ rest) hlist trivial
  rw [functionFrom]
  cases hresult with
  | nil =>
    obtain rfl := fit_nil.mp hback
    have harrow := hrest.clear.isMark (m := "->") (by decide)
    rw [List.nil_append] at hps
    exact ⟨_, ⟨ps.filterMap id, none, _, rfl⟩, by simp [hps, harrow, textSince]; rfl⟩
  | @arrow ss hss =>
    obtain ⟨gap', commented', vs, rfl, hvs⟩ := fit_mark.mp hback
    rw [List.length_cons] at hn
    obtain ⟨t, -, ht⟩ := hss.reads n (by omega) vs rest hvs hrest
    rw [List.cons_append] at hps
    exact ⟨_, ⟨ps.filterMap id, some t, _, rfl⟩, by simp [hps, ht, textSince]; rfl⟩

theorem flat_callee {ss : List Shape} (h : IsCallee ss) : Flat ss := by
  cases h with
  | path _ => exact flat_pathShapes _
  | @keyword mods hmods =>
    refine (flat_of_forall fun s hs => ?_).append (.cons (isFlat_word _) .nil)
    obtain ⟨us, hus, hs⟩ := List.mem_flatten.mp hs
    have hmod := hmods us hus
    cases hmod with
    | word _ =>
      obtain rfl := List.mem_singleton.mp hs
      exact isFlat_word _
    | foreign =>
      obtain rfl := List.mem_singleton.mp hs
      exact isFlat_word _
    | interface hkind name =>
      simp only [List.mem_cons, List.not_mem_nil, or_false] at hs
      rcases hs with rfl | rfl
      · exact isFlat_word _
      · rcases hkind with rfl | rfl <;> exact fun h => by cases h.1

private theorem flat_binder {ss : List Shape} (h : IsBinder ss) : Flat ss := by
  cases h with
  | nil => exact .nil
  | lifetimes _ hcomma =>
    refine .cons (isFlat_word _) (.cons (isFlat_mark (by decide)) ((flat_separatedBy (fun ss hss => ?_)
      (isFlat_mark (by decide))).append (Flat.append ?_ (.cons (isFlat_mark (by decide)) .nil))))
    · obtain ⟨l, -, rfl⟩ := List.mem_map.mp hss
      exact .cons (fun h => by cases h.1) .nil
    · rcases hcomma with rfl | rfl
      · exact .nil
      · exact .cons (isFlat_mark (by decide)) .nil

private theorem flat_result {ss : List Shape} (h : IsResult ss) : Flat ss := by
  cases h with
  | nil => exact .nil
  | arrow h => exact .cons (isFlat_mark (by decide)) h.flat

theorem flat_callShapes {params : List (List Shape)} (hparams : ∀ ss ∈ params, IsType ss) {result : List Shape}
    (hresult : IsResult result) : Flat (callShapes params result) :=
  .group (o := "(") (c := ")") rfl (balanced_separatedBy (fun ss hss => (hparams ss hss).flat.balanced)
    (isFlat_mark (by decide)).isInner) (flat_result hresult)

theorem IsCallee.exists_word {ss : List Shape} (h : IsCallee ss) :
    ∃ w us, ss = .word w :: us ∧ w ∉ ["dyn", "impl", "for", "use", "mut", "self", "_", "true", "false"] := by
  cases h with
  | path h =>
    obtain ⟨first, more, rfl⟩ := List.exists_cons_of_ne_nil h.ne_nil
    have hfirst := h.head first rfl
    refine ⟨first, _, rfl, fun hmem => hfirst ?_⟩
    simp only [typeWords, List.mem_cons, List.not_mem_nil, or_false] at hmem ⊢
    tauto
  | @keyword mods hmods =>
    cases mods with
    | nil => exact ⟨"fn", [], rfl, by decide⟩
    | cons mod mods =>
      obtain ⟨w, us, rfl, hw⟩ := (List.forall_mem_cons.mp hmods).1.exists_word
      refine ⟨w, _, rfl, fun hmem => ?_⟩
      simp only [modifierWords, List.mem_cons, List.not_mem_nil, or_false] at hw
      rcases hw with rfl | rfl | rfl | rfl | rfl | rfl <;> revert hmem <;> decide

/-- What may come next behind the path of a function type. -/
theorem ends_callShapes {params : List (List Shape)} {result : List Shape} {ts : List Token}
    (hfit : Fit ts (callShapes params result)) (rest : List Token) : Ends ["::", "<"] (ts ++ rest) := by
  obtain ⟨gap, commented, us, rfl, -⟩ := fit_mark.mp hfit
  exact ends_mark (by decide)

theorem functionKeyword_path {segs : List String} (hsegs : IsTypePath segs) {items : List (List Shape)}
    {ts rest : List Token} (hfit : Fit ts (pathShapes segs ++ argsShapes items)) (hrest : Ends ["::", "<"] rest) :
    functionKeyword (ts ++ rest) = none := by
  obtain ⟨first, more, rfl⟩ := List.exists_cons_of_ne_nil hsegs.ne_nil
  have hfirst : first ∉ typeWords := hsegs.head first rfl
  simp only [typeWords, List.mem_cons, List.not_mem_nil, or_false, not_or] at hfirst
  obtain ⟨gap, commented, us, rfl, hus⟩ := fit_word.mp hfit
  have hends : Ends [] (us ++ rest) := ends_behind hus hrest
  exact functionKeyword_eq_none hfirst.2.2.2.1 hends

/-- The value of a function type. -/
def IsFunction (t : TypeExpr) : Prop := ∃ head ps r text, t = .function head ps r text

/-- A path with the parameters of a function type. -/
theorem takes_pathCall {segs : List String} (hsegs : IsTypePath segs) {params : List (List Shape)}
    (hparams : ∀ ss ∈ params, IsType ss) {result : List Shape} (hresult : IsResult result) {n : Nat}
    (hn : 10 * (pathShapes segs ++ callShapes params result).length ≤ n + 4) (start : List Token)
    (binder : Option String) :
    TakesAs IsFunction (pathFrom n start binder) (pathShapes segs ++ callShapes params result) (Ends typeMarks) := by
  intro ts rest hfit hrest
  obtain ⟨front, back, hfront, hback, rfl⟩ := fit_append.mp hfit
  obtain ⟨first, more, rfl⟩ := List.exists_cons_of_ne_nil hsegs.ne_nil
  have hpos : 0 < (pathShapes (first :: more)).length := by simp [pathShapes]
  rw [List.length_append] at hn
  obtain ⟨n, rfl⟩ := Nat.exists_eq_succ_of_ne_zero (n := n) (by rw [callShapes, List.length_cons] at hn; omega)
  have hpath : Fit front (pathShapes (first :: more) ++ argsShapes []) := by simpa [argsShapes] using hfront
  obtain ⟨⟨path, args⟩, ⟨-, hargs⟩, hread⟩ := takes_pathWithArguments (by simp) (n := n)
    (by simp [argsShapes]; omega) front (back ++ rest) hpath (ends_callShapes hback rest).clear
  obtain rfl : args = none := by simpa using hargs
  obtain ⟨t, ⟨ps, r, text, rfl⟩, hfunction⟩ := takes_functionFrom hparams hresult (n := n) (by omega) start
    (.trait binder path) back rest hback hrest
  refine ⟨_, ⟨.trait binder path, ps, r, text, rfl⟩, ?_⟩
  obtain ⟨gap, commented, us, rfl, -⟩ := fit_mark.mp hback
  rw [List.cons_append] at hread
  rw [pathFrom, List.append_assoc, List.cons_append]
  simpa [hread] using hfunction

/-- What follows the binder of a function type. -/
theorem takes_callee {callee : List Shape} (hcallee : IsCallee callee) {params : List (List Shape)}
    (hparams : ∀ ss ∈ params, IsType ss) {result : List Shape} (hresult : IsResult result) {n : Nat}
    (hn : 10 * (callee ++ callShapes params result).length ≤ n + 4) (start : List Token) (binder : Option String) :
    TakesAs IsFunction
      (do
        match ← optional functionKeyword with
        | some _ => do
          let head ← textSince start
          functionFrom n start (.keyword head)
        | none =>
          match binder, ← pathFrom n start binder with
          | some _, .function head ps r text => pure (.function head ps r text)
          | some _, _ => failure
          | none, t => pure t)
      (callee ++ callShapes params result) (Ends typeMarks) := by
  intro ts rest hfit hrest
  cases hcallee with
  | @keyword mods hmods =>
    obtain ⟨front, back, hfront, hback, rfl⟩ := fit_append.mp hfit
    rw [List.length_append] at hn
    rw [List.append_assoc]
    obtain ⟨u, hu⟩ := takes_functionKeyword hmods front (back ++ rest) hfront trivial
    have hcall := takes_functionFrom hparams hresult (n := n) (by omega) start
    obtain ⟨t, ⟨ps, r, text, ht⟩, hread⟩ := hcall (.keyword (squashed (start.take (start.length - (back ++ rest).length))))
      back rest hback hrest
    exact ⟨t, ⟨_, ps, r, text, ht⟩, by simpa [hu, textSince] using hread⟩
  | @path segs hsegs =>
    obtain ⟨t, ⟨head, ps, r, text, rfl⟩, hread⟩ := takes_pathCall hsegs hparams hresult (n := n) (by omega) start binder
      ts rest hfit hrest
    have hnone : functionKeyword (ts ++ rest) = none := by
      obtain ⟨front, back, hfront, hback, rfl⟩ := fit_append.mp hfit
      have hpath : Fit front (pathShapes segs ++ argsShapes []) := by simpa [argsShapes] using hfront
      rw [List.append_assoc]
      exact functionKeyword_path hsegs hpath (ends_callShapes hback rest)
    refine ⟨_, ⟨head, ps, r, text, rfl⟩, ?_⟩
    simp only [run_bind, run_optional, hnone, Option.bind_some, hread]
    cases binder <;> rfl

/-- A function type behind the lifetimes that it is quantified over. -/
theorem takes_namedFunction {binder callee : List Shape} (hbinder : IsBinder binder) (hcallee : IsCallee callee)
    {params : List (List Shape)} (hparams : ∀ ss ∈ params, IsType ss) {result : List Shape} (hresult : IsResult result)
    {n : Nat} (hn : 10 * (binder ++ (callee ++ callShapes params result)).length ≤ n + 3) :
    TakesAs IsFunction (namedType n) (binder ++ (callee ++ callShapes params result)) (Ends typeMarks) := by
  intro ts rest hfit hrest
  obtain ⟨w, us, rfl, hword⟩ := hcallee.exists_word
  rw [List.length_append, List.length_append, List.length_cons] at hn
  obtain ⟨n, rfl⟩ := Nat.exists_eq_succ_of_ne_zero (n := n) (by omega)
  obtain ⟨front, back, hfront, hback, rfl⟩ := fit_append.mp hfit
  obtain ⟨b, hb⟩ : ∃ b, onlyIf (isWord "for") forLifetimes (front ++ (back ++ rest)) = some (b, back ++ rest) := by
    cases hbinder with
    | nil =>
      obtain rfl := fit_nil.mp hfront
      simp only [List.mem_cons, List.not_mem_nil, or_false, not_or] at hword
      obtain ⟨gap, commented, xs, rfl, -⟩ := fit_word.mp hback
      exact ⟨none, by simp [hword]⟩
    | lifetimes hne hcomma =>
      obtain ⟨b, hb⟩ := takes_forLifetimes hne hcomma front (back ++ rest) hfront trivial
      obtain ⟨gap, commented, xs, rfl, -⟩ := fit_word.mp hfront
      rw [List.cons_append] at hb
      exact ⟨some b, by simp [hb]⟩
  obtain ⟨t, ht, hread⟩ := takes_callee hcallee hparams hresult (n := n)
    (by rw [List.length_append, List.length_cons]; omega) (front ++ (back ++ rest)) b back rest hback hrest
  refine ⟨t, ht, ?_⟩
  rw [namedType, List.append_assoc]
  simp only [run_bind, run_position, Option.bind_some, hb] at hread ⊢
  exact hread

theorem isSingle_function {binder callee : List Shape} (hbinder : IsBinder binder) (hcallee : IsCallee callee)
    {params : List (List Shape)} (hparams : ∀ ss ∈ params, IsType ss) {result : List Shape} (hresult : IsResult result) :
    IsSingle typeMarks (binder ++ (callee ++ callShapes params result)) := by
  have hflat := (flat_binder hbinder).append ((flat_callee hcallee).append (flat_callShapes hparams hresult))
  have hnamed {n : Nat} := takes_namedFunction (n := n) hbinder hcallee hparams hresult
  obtain ⟨w, us, hw, hword⟩ : ∃ w us, binder ++ (callee ++ callShapes params result) = .word w :: us ∧
      w ∉ ["dyn", "impl", "use", "mut", "self", "_", "true", "false"] := by
    cases hbinder with
    | nil =>
      obtain ⟨w, us, rfl, hw⟩ := hcallee.exists_word
      refine ⟨w, _, rfl, fun hmem => hw ?_⟩
      simp only [List.mem_cons, List.not_mem_nil, or_false] at hmem ⊢
      tauto
    | lifetimes => exact ⟨"for", _, rfl, by decide⟩
  generalize binder ++ (callee ++ callShapes params result) = whole at hflat hnamed hw
  subst hw
  simp only [List.mem_cons, List.not_mem_nil, or_false, not_or] at hword
  refine ⟨⟨.word w, rfl, .inl ⟨rfl, by simp [Shape.word, hword]⟩⟩, hflat, fun ts rest hfit => ?_,
    fun n hn ts rest hfit hrest => ?_⟩
  · exact noSelf_word (by simp [hword]) hfit
  · rw [List.length_cons] at hn
    obtain ⟨n, rfl⟩ := Nat.exists_eq_succ_of_ne_zero (n := n) (by omega)
    obtain ⟨t, ⟨head, ps, r, text, rfl⟩, hread⟩ := hnamed (n := n) (by rw [List.length_cons]; omega) ts rest hfit hrest
    obtain ⟨gap, commented, vs, rfl, -⟩ := fit_word.mp hfit
    exact ⟨.function head ps r text, nofun, by rw [List.cons_append, single_word hword.1 hword.2.1]; exact hread⟩

end Functions

section Composed

variable {ms : List String} {ss : List Shape}

/-- What stands in front of the type that a reference leads to. -/
def referenceShapes (lifetime : Option String) (isMutable : Bool) : List Shape :=
  .mark "&" :: (lifetime.toList.map (⟨.lifetime, ·, false⟩) ++ if isMutable then [.word "mut"] else [])

private theorem flat_referenceShapes (l : Option String) (isMutable : Bool) : Flat (referenceShapes l isMutable) := by
  refine flat_of_forall fun s hs => ?_
  rcases List.mem_cons.mp hs with rfl | hs
  · exact isFlat_mark (by decide)
  · rcases List.mem_append.mp hs with hs | hs
    · obtain ⟨l, -, rfl⟩ := List.mem_map.mp hs
      exact fun h => by cases h.1
    · cases isMutable with
      | false => cases hs
      | true =>
        obtain rfl := List.mem_singleton.mp hs
        exact isFlat_word _

/-- The front of a reference is read up to the type behind it. -/
theorem run_reference {l : Option String} {isMutable : Bool} {front : List Token}
    (hfit : Fit front (referenceShapes l isMutable)) {t : Token}
    (ht : t.kind = .word ∧ t.text ∉ ["use", "mut", "self", "_", "true", "false"] ∨
      t.kind = .mark ∧ t.text ∈ ["&", "*", "[", "(", "!"]) (rest : List Token) :
    ∃ gap commented more, front = ⟨.mark, "&", gap, commented⟩ :: more ∧
      optional lifetime (more ++ t :: rest) = some (l, more.drop l.toList.length ++ t :: rest) ∧
      optionalKeyword "mut" (more.drop l.toList.length ++ t :: rest) = some (isMutable, t :: rest) := by
  obtain ⟨gap, commented, more, rfl, hmore⟩ := fit_mark.mp hfit
  refine ⟨gap, commented, more, rfl, ?_⟩
  have hlifetime : t.kind ≠ .lifetime := by
    rcases ht with ⟨hkind, -⟩ | ⟨hkind, -⟩ <;> simp [hkind]
  have hmut : ¬(t.kind = .word ∧ t.text = "mut") := by
    rintro ⟨hkind, htext⟩
    rcases ht with ⟨-, hnot⟩ | ⟨hmark, -⟩
    · simp [htext] at hnot
    · rw [hkind] at hmark
      cases hmark
  obtain ⟨first, second, hfirst, hsecond, rfl⟩ := fit_append.mp hmore
  have hword : optionalKeyword "mut" (second ++ t :: rest) = some (isMutable, t :: rest) := by
    cases isMutable with
    | false =>
      obtain rfl := fit_nil.mp hsecond
      simp [hmut]
    | true =>
      obtain ⟨gap, commented, us, rfl, hus⟩ := fit_word.mp hsecond
      obtain rfl := fit_nil.mp hus
      simp
  cases l with
  | none =>
    obtain rfl := fit_nil.mp hfirst
    refine ⟨?_, hword⟩
    cases isMutable with
    | false =>
      obtain rfl := fit_nil.mp hsecond
      simp [hlifetime]
    | true =>
      obtain ⟨gap, commented, us, rfl, -⟩ := fit_word.mp hsecond
      simp
  | some l =>
    obtain ⟨gap, commented, us, rfl, hus⟩ := fit_shape.mp hfirst
    obtain rfl := fit_nil.mp hus
    exact ⟨by simp, by simpa using hword⟩

theorem isSingle_reference (l : Option String) (isMutable : Bool) (h : IsSingle ms ss) :
    IsSingle ms (referenceShapes l isMutable ++ ss) := by
  refine ⟨⟨.mark "&", rfl, startsType_mark (by simp)⟩, (flat_referenceShapes l isMutable).append h.flat,
    fun ts rest hfit => ?_, fun n hn ts rest hfit hrest => ?_⟩
  · obtain ⟨front, back, hfront, hback, rfl⟩ := fit_append.mp hfit
    obtain ⟨t, us, rfl, ht⟩ := exists_head h.start hback
    obtain ⟨gap, commented, more, rfl, hlifetime, hmut⟩ := run_reference hfront ht (us ++ rest)
    have hself : ¬(t.kind = .word ∧ t.text = "self") := by
      rintro ⟨hkind, htext⟩
      rcases ht with ⟨-, hnot⟩ | ⟨hmark, -⟩
      · simp [htext] at hnot
      · rw [hkind] at hmark
        cases hmark
    simp only [selfParameter, run_textOf, List.append_assoc, List.cons_append, run_bind, run_optionalMark,
      beq_self_eq_true, Bool.and_self, if_true, Option.bind_some, hlifetime, hmut, run_keyword]
    simp [hself]
  · rw [List.length_append, referenceShapes, List.length_cons] at hn
    obtain ⟨n, rfl⟩ := Nat.exists_eq_succ_of_ne_zero (n := n) (by omega)
    obtain ⟨front, back, hfront, hback, rfl⟩ := fit_append.mp hfit
    obtain ⟨a, -, hread⟩ := h.reads n (by omega) back rest hback hrest
    obtain ⟨t, us, rfl, ht⟩ := exists_head h.start hback
    obtain ⟨gap, commented, more, rfl, hlifetime, hmut⟩ := run_reference hfront ht (us ++ rest)
    refine ⟨.reference l isMutable a, fun x h => TypeExpr.noConfusion h, ?_⟩
    rw [single]
    rw [List.cons_append] at hread
    simp only [List.append_assoc, List.cons_append, run_bind, run_peek, List.head?_cons, Option.bind_some, run_mark,
      beq_self_eq_true, Bool.and_self, if_true, hlifetime, hmut, run_map, hread, Option.map_some]

theorem isSingle_pointer (isMutable : Bool) (h : IsSingle ms ss) :
    IsSingle ms (.mark "*" :: .word (if isMutable then "mut" else "const") :: ss) := by
  refine ⟨⟨.mark "*", rfl, startsType_mark (by simp)⟩, .cons (isFlat_mark (by decide)) (.cons (isFlat_word _) h.flat),
    fun ts rest hfit => noSelf_mark (by decide) hfit, fun n hn ts rest hfit hrest => ?_⟩
  rw [List.length_cons, List.length_cons] at hn
  obtain ⟨n, rfl⟩ := Nat.exists_eq_succ_of_ne_zero (n := n) (by omega)
  obtain ⟨gap, commented, us, rfl, hus⟩ := fit_mark.mp hfit
  obtain ⟨gap', commented', vs, rfl, hvs⟩ := fit_word.mp hus
  obtain ⟨a, -, hread⟩ := h.reads n (by omega) vs rest hvs hrest
  refine ⟨.pointer isMutable a, nofun, ?_⟩
  rw [single]
  cases isMutable <;> simp [hread]

theorem isSingle_slice (h : IsType ss) : IsSingle typeMarks (.mark "[" :: (ss ++ [.mark "]"])) := by
  refine ⟨⟨.mark "[", rfl, startsType_mark (by simp)⟩, .group (o := "[") (c := "]") rfl h.flat.balanced .nil,
    fun ts rest hfit => noSelf_mark (by decide) hfit, fun n hn ts rest hfit hrest => ?_⟩
  rw [List.length_cons, List.length_append] at hn
  obtain ⟨n, rfl⟩ := Nat.exists_eq_succ_of_ne_zero (n := n) (by omega)
  obtain ⟨gap, commented, us, rfl, hus⟩ := fit_mark.mp hfit
  obtain ⟨front, back, hfront, hback, rfl⟩ := fit_append.mp hus
  obtain ⟨gap', commented', vs, rfl, hvs⟩ := fit_mark.mp hback
  obtain rfl := fit_nil.mp hvs
  obtain ⟨a, hread⟩ := h.reads n (by omega) front (⟨.mark, "]", gap', commented'⟩ :: rest) hfront
    (ends_mark (by decide))
  refine ⟨.slice a, nofun, ?_⟩
  rw [single]
  simp [hread]

/-- Tokens that are copied into an array type as its length: balanced, without a comma or a semicolon outside of
brackets. -/
structure IsLength (ss : List Shape) : Prop where
  balanced : Balanced ss
  reads : Takes (trees [";", ","]) ss (Starts ["]"])

theorem isSingle_array (h : IsType ss) {len : List Shape} (hlen : IsLength len) :
    IsSingle typeMarks (.mark "[" :: (ss ++ .mark ";" :: (len ++ [.mark "]"]))) := by
  have hinner : Balanced (ss ++ .mark ";" :: len) :=
    h.flat.balanced.append (.cons (isFlat_mark (by decide)).isInner hlen.balanced)
  refine ⟨⟨.mark "[", rfl, startsType_mark (by simp)⟩, ?_, fun ts rest hfit => noSelf_mark (by decide) hfit,
    fun n hn ts rest hfit hrest => ?_⟩
  · have hgroup := Flat.group (o := "[") (c := "]") rfl hinner .nil
    rwa [List.append_assoc, List.cons_append] at hgroup
  · rw [List.length_cons, List.length_append] at hn
    obtain ⟨n, rfl⟩ := Nat.exists_eq_succ_of_ne_zero (n := n) (by omega)
    obtain ⟨gap, commented, us, rfl, hus⟩ := fit_mark.mp hfit
    obtain ⟨front, back, hfront, hback, rfl⟩ := fit_append.mp hus
    obtain ⟨gap', commented', vs, rfl, hvs⟩ := fit_mark.mp hback
    obtain ⟨mid, last, hmid, hlast, rfl⟩ := fit_append.mp hvs
    obtain ⟨gap'', commented'', xs, rfl, hxs⟩ := fit_mark.mp hlast
    obtain rfl := fit_nil.mp hxs
    obtain ⟨u, htrees⟩ := hlen.reads mid (⟨.mark, "]", gap'', commented''⟩ :: rest) hmid ⟨_, rest, rfl, rfl, by simp⟩
    obtain ⟨a, hread⟩ := h.reads n (by omega) front
      (⟨.mark, ";", gap', commented'⟩ :: (mid ++ ⟨.mark, "]", gap'', commented''⟩ :: rest)) hfront
      (ends_mark (by decide))
    obtain ⟨text, htext⟩ := exists_textOf htrees
    refine ⟨.array a text, nofun, ?_⟩
    rw [single]
    simp [hread, htext, -run_textOf]

/-- What types in parentheses are: a single one without a comma is that type, and any others are a tuple. -/
def enclosed (ts : List TypeExpr) (comma : Bool) : TypeExpr :=
  match ts, comma with
  | [t], false => .parenthesized t
  | _, _ => .tuple ts

private theorem enclosed_cases (ts : List TypeExpr) (comma : Bool) :
    (∃ t, enclosed ts comma = .parenthesized t) ∨ enclosed ts comma = .tuple ts := by
  unfold enclosed
  split
  · exact .inl ⟨_, rfl⟩
  · exact .inr rfl

/-- Behind types in parentheses no further type follows, also where there is a comma. -/
private theorem ends_types {items : List (List Shape)} {comma : List Shape} {back : List Token}
    (hcomma : comma = [] ∨ items ≠ [] ∧ comma = [.mark ","]) (hback : Fit back (comma ++ [.mark ")"]))
    (rest : List Token) (n : Nat) :
    Starts [",", ")"] (back ++ rest) ∧ (do mark ","; typeUpTo n) (back ++ rest) = none := by
  rcases hcomma with rfl | ⟨-, rfl⟩
  · obtain ⟨gap, commented, xs, rfl, _⟩ := fit_mark.mp hback
    exact ⟨⟨_, xs ++ rest, rfl, rfl, by simp⟩, by simp⟩
  · obtain ⟨gap, commented, xs, rfl, hxs⟩ := fit_mark.mp hback
    obtain ⟨gap', commented', vs, rfl, _⟩ := fit_mark.mp hxs
    have hclose : Starts [")"] (⟨.mark, ")", gap', commented'⟩ :: (vs ++ rest)) := ⟨_, _, rfl, rfl, by simp⟩
    have hnone := typeUpTo_closed (by decide) hclose n
    exact ⟨⟨_, _, rfl, rfl, by simp⟩, by simp [hnone]⟩

private theorem closes_types {items : List (List Shape)} {comma : List Shape} {back : List Token}
    (hcomma : comma = [] ∨ items ≠ [] ∧ comma = [.mark ","]) (hback : Fit back (comma ++ [.mark ")"]))
    (rest : List Token) :
    ∃ b mid, optionalMark "," (back ++ rest) = some (b, mid) ∧ mark ")" mid = some ((), rest) := by
  rcases hcomma with rfl | ⟨-, rfl⟩
  · obtain ⟨gap, commented, xs, rfl, hxs⟩ := fit_mark.mp hback
    obtain rfl := fit_nil.mp hxs
    exact ⟨false, ⟨.mark, ")", gap, commented⟩ :: rest, by simp, by simp⟩
  · obtain ⟨gap, commented, xs, rfl, hxs⟩ := fit_mark.mp hback
    obtain ⟨gap', commented', vs, rfl, hvs⟩ := fit_mark.mp hxs
    obtain rfl := fit_nil.mp hvs
    exact ⟨true, ⟨.mark, ")", gap', commented'⟩ :: rest, by simp, by simp⟩

/-- A parenthesis does not close at once where a type can be read. -/
private theorem optionalMark_types {items : List (List Shape)} (hitems : ∀ us ∈ items, IsType us) (hne : items ≠ [])
    {front : List Token} (hfront : Fit front (separatedBy (.mark ",") items)) (rest : List Token) :
    optionalMark ")" (front ++ rest) = some (false, front ++ rest) := by
  obtain ⟨first, more, rfl⟩ := List.exists_cons_of_ne_nil hne
  obtain ⟨one, others, hone, -, rfl⟩ := fit_append.mp hfront
  obtain ⟨t, vs, rfl, ht⟩ := exists_head (hitems first List.mem_cons_self).start hone
  rw [List.cons_append, List.cons_append, run_optionalMark, if_neg]
  rcases ht with ⟨hkind, -⟩ | ⟨-, htext⟩
  · simp [hkind]
  · rw [Bool.and_eq_true, beq_iff_eq, beq_iff_eq]
    rintro ⟨-, heq⟩
    rw [heq] at htext
    revert htext
    decide

private theorem separated_ne_nil {α : Type} {m : String} {r : Reader α} {ts rest : List Token} {as : List α}
    (h : separated m r ts = some (as, rest)) : as ≠ [] := by
  rintro rfl
  simp only [separated, run_bind, run_many, Option.bind_some, run_pure] at h
  obtain ⟨x, -, hx⟩ := Option.bind_eq_some_iff.mp h
  simp at hx

/-- Types in parentheses. A single one with a comma behind it is a tuple, too. -/
theorem takes_parenthesized {items : List (List Shape)} (hitems : ∀ us ∈ items, IsType us) {comma : List Shape}
    (hcomma : comma = [] ∨ items ≠ [] ∧ comma = [.mark ","]) {n : Nat}
    (hn : 10 * (separatedBy (.mark ",") items).length + 5 ≤ n) :
    TakesAs (fun t => (∀ l, t ≠ .lifetime l) ∧ (items ≠ [] → t ≠ .tuple [])) (parenthesized n)
      (.mark "(" :: (separatedBy (.mark ",") items ++ (comma ++ [.mark ")"]))) fun _ => True := by
  intro ts rest hfit _
  obtain ⟨n, rfl⟩ := Nat.exists_eq_succ_of_ne_zero (n := n) (by omega)
  obtain ⟨gap, commented, us, rfl, hus⟩ := fit_mark.mp hfit
  rw [parenthesized]
  by_cases hne : items = []
  · subst hne
    obtain rfl : comma = [] := hcomma.resolve_right fun h => h.1 rfl
    obtain ⟨gap', commented', vs, rfl, hvs⟩ := fit_mark.mp hus
    obtain rfl := fit_nil.mp hvs
    exact ⟨.tuple [], ⟨fun l h => TypeExpr.noConfusion h, fun h => absurd rfl h⟩, by simp⟩
  · obtain ⟨front, back, hfront, hback, rfl⟩ := fit_append.mp hus
    have htypes : ∀ us ∈ items, Takes (typeUpTo n) us (Starts [",", ")"]) := by
      intro us hus
      have hlength := length_le_separatedBy (.mark ",") hus
      exact ((hitems us hus).reads n (by omega)).mono fun rest hrest => hrest.ends (by decide)
    obtain ⟨hstarts, hend⟩ := ends_types hcomma hback rest n
    obtain ⟨as, has⟩ := takes_separated (m := ",") (p := (· = back ++ rest)) hne
      (fun us hus => (htypes us hus).mono fun ts hts => hts.elim (·.mono (by simp)) (· ▸ hstarts))
      (fun ts hts => hts ▸ hend) front (back ++ rest) hfront rfl
    have hopen := optionalMark_types hitems hne hfront (back ++ rest)
    obtain ⟨b, mid, hb, hmark⟩ := closes_types hcomma hback rest
    have hvalue : (∀ l, enclosed as b ≠ .lifetime l) ∧ (items ≠ [] → enclosed as b ≠ .tuple []) := by
      rcases enclosed_cases as b with ⟨t, ht⟩ | ht
      · rw [ht]
        exact ⟨fun l h => TypeExpr.noConfusion h, fun _ h => TypeExpr.noConfusion h⟩
      · rw [ht]
        exact ⟨fun l h => TypeExpr.noConfusion h, fun _ h => separated_ne_nil has (TypeExpr.tuple.inj h)⟩
    refine ⟨enclosed as b, hvalue, ?_⟩
    simp only [List.cons_append, List.append_assoc, run_bind, run_mark, beq_self_eq_true, Bool.and_self, if_true,
      Option.bind_some, hopen, Bool.false_eq_true, if_false, has, hb, hmark]
    rcases as with _ | ⟨a, _ | ⟨c, as⟩⟩ <;> cases b <;> rfl

/-- Types in parentheses, as a type. -/
theorem isSingle_parenthesized {items : List (List Shape)} (hitems : ∀ us ∈ items, IsType us) {comma : List Shape}
    (hcomma : comma = [] ∨ items ≠ [] ∧ comma = [.mark ","]) :
    IsSingle typeMarks (.mark "(" :: (separatedBy (.mark ",") items ++ (comma ++ [.mark ")"]))) := by
  have hcommaInner : Balanced comma := by
    rcases hcomma with rfl | ⟨-, rfl⟩
    · exact .nil
    · exact .cons (isFlat_mark (by decide)).isInner .nil
  have hinner := (balanced_separatedBy (fun us hus => (hitems us hus).flat.balanced)
    (isFlat_mark (m := ",") (by decide)).isInner).append hcommaInner
  refine ⟨⟨.mark "(", rfl, startsType_mark (by simp)⟩, ?_, fun ts rest hfit => noSelf_mark (by decide) hfit,
    fun n hn ts rest hfit hrest => ?_⟩
  · have hgroup := Flat.group (o := "(") (c := ")") rfl hinner .nil
    rwa [List.append_assoc] at hgroup
  · simp only [List.length_cons, List.length_append, List.length_nil] at hn
    obtain ⟨n, rfl⟩ := Nat.exists_eq_succ_of_ne_zero (n := n) (by omega)
    obtain ⟨t, ⟨ht, -⟩, hread⟩ := takes_parenthesized hitems hcomma (n := n) (by omega) ts rest hfit trivial
    refine ⟨t, ht, ?_⟩
    obtain ⟨gap, commented, us, rfl, -⟩ := fit_mark.mp hfit
    rw [List.cons_append] at hread ⊢
    rw [single]
    simpa using hread

theorem isSingle_never : IsSingle typeMarks [.mark "!"] := by
  refine ⟨⟨.mark "!", rfl, startsType_mark (by simp)⟩, .cons (isFlat_mark (by decide)) .nil,
    fun ts rest hfit => noSelf_mark (by decide) hfit, fun n hn ts rest hfit hrest => ?_⟩
  obtain ⟨n, rfl⟩ := Nat.exists_eq_succ_of_ne_zero (n := n) (by simp at hn; omega)
  obtain ⟨gap, commented, us, rfl, hus⟩ := fit_mark.mp hfit
  obtain rfl := fit_nil.mp hus
  exact ⟨.never, nofun, by rw [single]; simp⟩

end Composed

end TraitMock.Syntax.Reader
