import TraitMock.Proofs.Syntax.Attributes
import TraitMock.Proofs.Syntax.Blocks
import TraitMock.Syntax.Item

namespace TraitMock.Syntax.Reader

variable {α : Type} {n : Nat} {ss us : List Shape}

section Params

/-- The front of a parameter: its name and the colon behind it. -/
theorem patternColon_name {x : String} (hx : x ∉ patternWords) {gap gap' : String} {commented commented' : Bool}
    (rest : List Token) : patternColon (⟨.word, x, gap, commented⟩ :: ⟨.mark, ":", gap', commented'⟩ :: rest) =
      some ((), rest) := by
  have hcolon : Starts [":"] (⟨.mark, ":", gap', commented'⟩ :: rest) := ⟨_, _, rfl, rfl, by simp⟩
  obtain ⟨_, hread⟩ := (isPattern_name hx).takes_pattern [⟨.word, x, gap, commented⟩] _
    (fit_word.mpr ⟨_, _, [], rfl, fit_nil.mpr rfl⟩) (hcolon.clear (by decide))
  have hself : x ≠ "self" := by
    rintro rfl
    revert hx
    decide
  rw [List.cons_append, List.nil_append] at hread
  simp [patternColon, hself, hread]

/-- A parameter with its type. -/
theorem takes_param {x : String} (hx : x ∉ patternWords) (h : IsType ss) :
    Takes param (.word x :: .mark ":" :: ss) (Starts [",", ")"]) := by
  intro ts rest hfit hrest
  obtain ⟨gap, commented, us, rfl, hus⟩ := fit_word.mp hfit
  obtain ⟨gap', commented', vs, rfl, hvs⟩ := fit_mark.mp hus
  have hcolon : patternColon (⟨.word, x, gap, commented⟩ :: ⟨.mark, ":", gap', commented'⟩ :: (vs ++ rest)) =
      some ((), vs ++ rest) := patternColon_name hx (vs ++ rest)
  obtain ⟨t, ht⟩ := h.takes_type vs rest hvs (hrest.ends (by decide))
  have hdots : mark "..." (vs ++ rest) = none := by
    obtain ⟨u, more, rfl, hstart⟩ := exists_head h.start hvs
    have hnot : ¬(u.kind = .mark ∧ u.text = "...") := by
      rintro ⟨hkind, htext⟩
      rcases hstart with ⟨hword, -⟩ | ⟨-, hmem⟩
      · cases hkind.symm.trans hword
      · rw [htext] at hmem
        revert hmem
        decide
    simp [hnot]
  have hattribute := outerAttribute_eq_none (t := ⟨.word, x, gap, commented⟩) (by simp)
    (⟨.mark, ":", gap', commented'⟩ :: (vs ++ rest))
  have hmut : x ≠ "mut" := by
    rintro rfl
    revert hx
    decide
  have hself : x ≠ "self" := by
    rintro rfl
    revert hx
    decide
  obtain ⟨pattern, hpattern⟩ : ∃ pattern, paramPattern (⟨.word, x, gap, commented⟩ :: ⟨.mark, ":", gap', commented'⟩ ::
      (vs ++ rest)) = some (pattern, vs ++ rest) := by
    by_cases hother : x = "_" ∨ x = "true" ∨ x = "false"
    · refine ⟨.other, ?_⟩
      rcases hother with rfl | rfl | rfl <;> simp [paramPattern, hcolon]
    · simp only [not_or] at hother
      exact ⟨.name x, by simp [paramPattern, hmut, hcolon, hself, hother]⟩
  have hvariadic : variadicParameter (⟨.word, x, gap, commented⟩ :: ⟨.mark, ":", gap', commented'⟩ :: (vs ++ rest)) =
      none := by
    simp [variadicParameter, hmut, hcolon, hdots]
  have hread : (do let pattern ← paramPattern; let t ← type; pure (pattern, t)) (⟨.word, x, gap, commented⟩ ::
      ⟨.mark, ":", gap', commented'⟩ :: (vs ++ rest)) = some ((pattern, t), rest) := by
    simp [hpattern, ht]
  obtain ⟨text, htext⟩ := exists_withText hread
  refine ⟨some (.typed pattern t text), ?_⟩
  rw [param]
  simp only [List.cons_append, run_bind, run_optional, hattribute, Option.bind_some, run_orElse, hvariadic, htext,
    Option.bind_none, Option.none_or, run_pure, Option.some_or]

theorem takes_param_self : Takes param [.mark "&", .word "self"] (Starts [",", ")"]) := by
  intro ts rest hfit hrest
  have hflat : Flat [.mark "&", .word "self"] := flat_of_forall (by simp [Shape.IsFlat, Shape.mark, Shape.word, brackets, closers])
  have hpattern := patternColon_eq_none hflat hfit hrest
  obtain ⟨gap, commented, us, rfl, hus⟩ := fit_mark.mp hfit
  obtain ⟨gap', commented', vs, rfl, hvs⟩ := fit_word.mp hus
  obtain rfl := fit_nil.mp hvs
  have hattribute := outerAttribute_eq_none (t := ⟨.mark, "&", gap, commented⟩) (by simp)
    (⟨.word, "self", gap', commented'⟩ :: rest)
  rw [List.cons_append, List.cons_append, List.nil_append] at hpattern
  obtain ⟨text, htext⟩ : ∃ text, selfParameter (⟨.mark, "&", gap, commented⟩ :: ⟨.word, "self", gap', commented'⟩ :: rest) =
      some (text, rest) := by
    rw [selfParameter]
    exact exists_textOf (a := ()) (by simp)
  refine ⟨some (.receiver text), ?_⟩
  rw [param]
  simp [hattribute, variadicParameter, paramPattern, hpattern, htext]

private theorem param_closed {ts : List Token} (h : Starts [")"] ts) : param ts = none := by
  have hpattern : patternColon ts = none := patternColon_eq_none .nil (fit_nil.mpr rfl) (h.mono (by decide))
  have htype : type ts = none := typeUpTo_closed (by decide) h _
  obtain ⟨⟨kind, text, gap, commented⟩, after, rfl, rfl, hmem⟩ := h
  obtain rfl : text = ")" := by simpa using hmem
  have hattribute := outerAttribute_eq_none (t := ⟨.mark, ")", gap, commented⟩) (by simp) after
  have hself := selfParameter_eq_none (t := ⟨.mark, ")", gap, commented⟩) (.inr ⟨rfl, by simp⟩) after
  rw [param]
  simp [hattribute, variadicParameter, paramPattern, hpattern, hself, htype]

end Params

section Heads

/-- Nothing, or the generic parameters of a function. -/
inductive IsGenericParams : List Shape → Prop where
  | nil : IsGenericParams []
  | angle {ss : List Shape} (h : Takes generics (.mark "<" :: ss) fun _ => True) : IsGenericParams (.mark "<" :: ss)

/-- Nothing, or the conditions of a function that has a body. -/
inductive IsClause : List Shape → Prop where
  | nil : IsClause []
  | conditions {ss : List Shape} (h : Takes optionalWhere (.word "where" :: ss) (Starts ["\x7b"])) :
    IsClause (.word "where" :: ss)

/-- The result of a function behind its arrow, or nothing. -/
inductive IsReturn : List Shape → Prop where
  | nil : IsReturn []
  | arrow {ss : List Shape} (h : IsType ss) : IsReturn (.mark "->" :: ss)

/-- The parts of the head of a function. -/
structure FunctionShapes where
  modifiers : List (List Shape)
  name : String
  generics : List Shape
  params : List (List Shape)
  result : List Shape
  clause : List Shape

namespace FunctionShapes

/-- The head of a function. -/
def shapes (f : FunctionShapes) : List Shape :=
  f.modifiers.flatten ++ .word "fn" :: .word f.name ::
    (f.generics ++ .mark "(" :: (separatedBy (.mark ",") f.params ++ .mark ")" :: (f.result ++ f.clause)))

/-- The parts are read as those of the head of a function. -/
structure IsRead (f : FunctionShapes) : Prop where
  modifiers : ∀ ss ∈ f.modifiers, IsModifier ss
  generics : IsGenericParams f.generics
  params : ∀ ss ∈ f.params, Takes param ss (Starts [",", ")"])
  result : IsReturn f.result
  clause : IsClause f.clause

end FunctionShapes

private theorem takes_optionalGenerics (h : IsGenericParams ss) : Takes optionalGenerics ss (Starts ["("]) := by
  intro ts rest hfit hrest
  cases h with
  | nil =>
    have hangle : Clear ["<"] rest := hrest.clear (by decide)
    rw [fit_nil.mp hfit]
    exact ⟨none, by simp [optionalGenerics, hangle.isMark (m := "<") (by simp)]⟩
  | angle h =>
    obtain ⟨params, hparams⟩ := h ts rest hfit trivial
    obtain ⟨text, htext⟩ := exists_withText hparams
    obtain ⟨gap, commented, us, rfl, -⟩ := fit_mark.mp hfit
    rw [List.cons_append] at htext
    exact ⟨some ⟨text, params.all id⟩, by simp [optionalGenerics, htext, -run_withText]⟩

theorem takes_clause (h : IsClause ss) : Takes optionalWhere ss (Starts ["\x7b"]) := by
  intro ts rest hfit hrest
  cases h with
  | nil =>
    obtain ⟨t, after, rfl, hkind, -⟩ := hrest
    rw [fit_nil.mp hfit]
    exact ⟨none, by simp [optionalWhere, hkind]⟩
  | conditions h => exact h ts rest hfit hrest

/-- Behind the parameters of a function comes its arrow, its conditions or its body. -/
theorem ends_clause (h : IsClause ss) {ts rest : List Token} (hfit : Fit ts ss) (hrest : Starts ["\x7b"] rest) :
    Ends ("->" :: sumMarks) (ts ++ rest) := by
  cases h with
  | nil =>
    rw [fit_nil.mp hfit]
    exact hrest.ends (by decide)
  | conditions =>
    obtain ⟨gap, commented, us, rfl, -⟩ := fit_word.mp hfit
    intro t ht
    obtain rfl : _ = t := by simpa using ht
    exact .inr ⟨rfl, List.mem_cons_self⟩

private theorem takes_return (h : IsReturn ss) : Takes (onlyIf (isMark "->") (do mark "->"; type)) ss (Ends ("->" :: sumMarks)) := by
  intro ts rest hfit hrest
  cases h with
  | nil =>
    rw [fit_nil.mp hfit]
    exact ⟨none, by simp [hrest.clear.isMark (m := "->") (by simp)]⟩
  | arrow h =>
    obtain ⟨gap, commented, us, rfl, hus⟩ := fit_mark.mp hfit
    obtain ⟨t, ht⟩ := h.takes_type us rest hus (hrest.mono fun m => List.mem_cons_of_mem _)
    exact ⟨some t, by simp [ht]⟩

private theorem takes_optionalModifiers {mods : List (List Shape)} (h : ∀ ss ∈ mods, IsModifier ss) :
    Takes (optional modifiers) mods.flatten fun rest => ∃ gap commented after, rest = ⟨.word, "fn", gap, commented⟩ :: after := by
  rintro ts rest hfit ⟨gap, commented, after, rfl⟩
  have hend : modifier (⟨.word, "fn", gap, commented⟩ :: after) = none := modifier_fn after
  by_cases hne : mods = []
  · subst hne
    rw [fit_nil.mp hfit]
    exact ⟨none, by simp [modifiers, hend]⟩
  · obtain ⟨text, htext⟩ := takes_modifiers hne h ts _ hfit ⟨⟨_, after, rfl, rfl⟩, hend⟩
    exact ⟨some text, by simp [htext]⟩

/-- A function with a body is read up to its end. -/
theorem takes_function {f : FunctionShapes} (h : f.IsRead) {body : Reader Unit}
    (hbody : Takes body (blockShapes ss) fun _ => True) :
    Takes (function body) (f.shapes ++ blockShapes ss) fun _ => True := by
  intro ts rest hfit _
  obtain ⟨head, block, hhead, hblock, rfl⟩ := fit_append.mp hfit
  obtain ⟨mods, tail, hmods, htail, rfl⟩ := fit_append.mp hhead
  obtain ⟨gap₁, commented₁, us, rfl, hus⟩ := fit_word.mp htail
  obtain ⟨gap₂, commented₂, vs, rfl, hvs⟩ := fit_word.mp hus
  obtain ⟨angle, xs, hangle, hxs, rfl⟩ := fit_append.mp hvs
  obtain ⟨gap₃, commented₃, ys, rfl, hys⟩ := fit_mark.mp hxs
  obtain ⟨list, zs, hlist, hzs, rfl⟩ := fit_append.mp hys
  obtain ⟨gap₄, commented₄, end_, rfl, hend⟩ := fit_mark.mp hzs
  obtain ⟨arrow, clause, harrow, hclause, rfl⟩ := fit_append.mp hend
  have hopen : Starts ["\x7b"] (block ++ rest) := starts_of_fit (s := .mark "\x7b") rfl rfl (by simp [Shape.mark]) hblock rest
  have hsemicolon : Clear [";"] (block ++ rest) := hopen.clear (by decide)
  obtain ⟨_, hread⟩ := hbody block rest hblock trivial
  obtain ⟨w, hwhere⟩ := takes_clause h.clause clause (block ++ rest) hclause hopen
  obtain ⟨r, hresult⟩ := takes_return h.result arrow (clause ++ (block ++ rest)) harrow (ends_clause h.clause hclause hopen)
  have hclose : Fit (list ++ [⟨.mark, ")", gap₄, commented₄⟩]) (separatedBy (.mark ",") f.params ++ ([] ++ [.mark ")"])) :=
    fit_append.mpr ⟨_, _, hlist, fit_mark.mpr ⟨_, _, [], rfl, fit_nil.mpr rfl⟩, rfl⟩
  obtain ⟨ps, hps⟩ := takes_listed [] h.params (by decide) (.inl rfl) (fun ts hts => param_closed hts) _
    (arrow ++ (clause ++ (block ++ rest))) hclose trivial
  obtain ⟨g, hgenerics⟩ := takes_optionalGenerics h.generics angle (⟨.mark, "(", gap₃, commented₃⟩ ::
    (list ++ ⟨.mark, ")", gap₄, commented₄⟩ :: (arrow ++ (clause ++ (block ++ rest))))) hangle ⟨_, _, rfl, rfl, by simp⟩
  obtain ⟨m, hmodifiers⟩ := takes_optionalModifiers h.modifiers mods (⟨.word, "fn", gap₁, commented₁⟩ ::
    ⟨.word, f.name, gap₂, commented₂⟩ :: (angle ++ ⟨.mark, "(", gap₃, commented₃⟩ ::
      (list ++ ⟨.mark, ")", gap₄, commented₄⟩ :: (arrow ++ (clause ++ (block ++ rest)))))) hmods ⟨_, _, _, rfl⟩
  refine ⟨⟨f.name, m, g, ps.filterMap id, r, w⟩, ?_⟩
  rw [function]
  simp only [List.append_assoc, List.cons_append, List.nil_append] at hps hmodifiers ⊢
  simp only [run_bind, hmodifiers, Option.bind_some, run_keyword, run_name, beq_self_eq_true, Bool.and_self, if_true,
    hgenerics, run_mark, hps, hresult, hwhere, run_orElse, hread, hsemicolon.mark List.mem_cons_self, Option.none_or,
    run_pure]

end Heads

end TraitMock.Syntax.Reader
