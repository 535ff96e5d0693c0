import TraitMock.Proofs.Signature.Lifetimes

namespace TraitMock.Signature

/-- Each quotation mark in a text belongs to one of some texts, which stands around it. -/
def QuotesFrom (allowed : List String) (cs : List Char) : Prop :=
  ∀ front back, cs = front ++ '\'' :: back →
    ∃ s ∈ allowed, ∃ left right, s.toList = left ++ '\'' :: right ∧ left <:+ front ∧ right <+: back

variable {allowed : List String} {cs ds : List Char}

theorem QuotesFrom.mono {more : List String} (h : QuotesFrom allowed cs) (hsub : ∀ s ∈ allowed, s ∈ more) :
    QuotesFrom more cs := by
  intro front back hcs
  obtain ⟨s, hs, hstands⟩ := h front back hcs
  exact ⟨s, hsub s hs, hstands⟩

theorem quotesFrom_of_mem {s : String} (hs : s ∈ allowed) : QuotesFrom allowed s.toList :=
  fun front back hfront => ⟨s, hs, front, back, hfront, List.suffix_rfl, List.prefix_rfl⟩

theorem quotesFrom_of_not_mem (h : '\'' ∉ cs) : QuotesFrom allowed cs := by
  rintro front back rfl
  simp at h

theorem QuotesFrom.append (hcs : QuotesFrom allowed cs) (hds : QuotesFrom allowed ds) :
    QuotesFrom allowed (cs ++ ds) := by
  intro front back happend
  rcases List.append_eq_append_iff.mp happend with ⟨mid, rfl, hback⟩ | ⟨mid, rfl, hback⟩
  · obtain ⟨s, hs, left, right, htext, hleft, hright⟩ := hds mid back hback
    exact ⟨s, hs, left, right, htext, hleft.trans (List.suffix_append cs mid), hright⟩
  · cases mid with
    | nil =>
      obtain ⟨s, hs, left, right, htext, hleft, hright⟩ := hds [] back (by simpa using hback.symm)
      exact ⟨s, hs, left, right, htext, hleft.trans List.nil_suffix, hright⟩
    | cons c mid =>
      obtain ⟨rfl, rfl⟩ := List.cons.inj hback
      obtain ⟨s, hs, left, right, htext, hleft, hright⟩ := hcs front mid rfl
      exact ⟨s, hs, left, right, htext, hleft, hright.trans (List.prefix_append mid ds)⟩

theorem quotesFrom_append {a b : String} (ha : QuotesFrom allowed a.toList) (hb : QuotesFrom allowed b.toList) :
    QuotesFrom allowed (a ++ b).toList := by
  rw [String.toList_append]
  exact ha.append hb

theorem quotesFrom_intercalate {sep : String} (hsep : '\'' ∉ sep.toList) {items : List String}
    (hitems : ∀ x ∈ items, QuotesFrom allowed x.toList) : QuotesFrom allowed (sep.intercalate items).toList := by
  induction items with
  | nil => exact quotesFrom_of_not_mem (by simp)
  | cons x rest ih =>
    obtain ⟨hx, hrest⟩ := List.forall_mem_cons.mp hitems
    by_cases hnil : rest = []
    · subst hnil
      simpa using hx
    · rw [String.intercalate_cons_of_ne_nil hnil]
      exact quotesFrom_append (quotesFrom_append hx (quotesFrom_of_not_mem hsep)) (ih hrest)

/-- Marks around a text bring no quotation marks with them. -/
theorem quotesFrom_between {opening text closing : String} (hopening : '\'' ∉ opening.toList)
    (htext : QuotesFrom allowed text.toList) (hclosing : '\'' ∉ closing.toList) :
    QuotesFrom allowed (opening ++ text ++ closing).toList :=
  quotesFrom_append (quotesFrom_append (quotesFrom_of_not_mem hopening) htext) (quotesFrom_of_not_mem hclosing)

/-- What stands at a type is allowed. -/
def Allows (allowed : List String) (t : SigType) : Prop := ∀ s ∈ t.ownLifetimes ++ t.ownTexts, s ∈ allowed

private theorem quotesFrom_ofReference {l : Option String} (h : ∀ x ∈ l.toList, x ∈ allowed) :
    QuotesFrom allowed (LifetimeStyle.kept.ofReference l).toList := by
  cases l with
  | none => exact quotesFrom_of_not_mem (by simp [LifetimeStyle.ofReference])
  | some l =>
    have hl : l ∈ allowed := h l (by simp)
    simpa [LifetimeStyle.ofReference] using
      quotesFrom_append (quotesFrom_of_mem hl) (quotesFrom_of_not_mem (show '\'' ∉ " ".toList by decide))

private theorem quotesFrom_tupleText {elements : List String}
    (h : QuotesFrom allowed (", ".intercalate elements).toList) : QuotesFrom allowed (tupleText elements).toList := by
  have hcomma : QuotesFrom allowed (if elements.length = 1 then "," else "").toList := by
    split <;> exact quotesFrom_of_not_mem (by decide)
  exact quotesFrom_append h hcomma

private theorem quotesFrom_argsText {items : List String} (h : ∀ x ∈ items, QuotesFrom allowed x.toList) :
    QuotesFrom allowed (argsText items).toList := by
  unfold argsText
  split
  · exact quotesFrom_of_not_mem (by simp)
  · exact quotesFrom_between (by decide) (quotesFrom_intercalate (by decide) h) (by decide)

private theorem quotesFrom_resultText {result : Option String} (h : ∀ r ∈ result, QuotesFrom allowed r.toList) :
    QuotesFrom allowed (resultText result).toList := by
  cases result with
  | none => exact quotesFrom_of_not_mem (by simp [resultText])
  | some r => exact quotesFrom_append (quotesFrom_of_not_mem (by decide)) (h r rfl)

mutual

/-- Lifetimes and texts that are kept are all that has quotation marks in the text of a type. -/
theorem quotesFrom_render : (t : SigType) → (∀ u ∈ t.parts, Allows allowed u) →
    QuotesFrom allowed (t.render .kept).toList
  | .path p args => fun h => by
    rw [SigType.parts, List.forall_mem_cons] at h
    obtain ⟨hown, hparts⟩ := h
    have hp : QuotesFrom allowed p.toList := quotesFrom_of_mem (hown p (by simp [SigType.ownTexts]))
    have hargs := quotesFrom_renderArgs args hparts fun s hs => hown s (by
      rcases List.mem_append.mp hs with hs | hs
      · exact List.mem_append_left _ hs
      · exact List.mem_append_right _ (List.mem_cons_of_mem _ hs))
    rw [SigType.render]
    exact quotesFrom_append hp (quotesFrom_argsText hargs)
  | .reference l isMutable inner => fun h => by
    rw [SigType.parts, List.forall_mem_cons] at h
    obtain ⟨hown, hparts⟩ := h
    have hl := quotesFrom_ofReference (l := l) fun x hx => hown x (List.mem_append_left _ hx)
    rw [SigType.render]
    refine quotesFrom_append (quotesFrom_append (quotesFrom_append (quotesFrom_of_not_mem (by decide)) hl) ?_)
      (quotesFrom_render inner hparts)
    cases isMutable <;> exact quotesFrom_of_not_mem (by decide)
  | .pointer isMutable inner => fun h => by
    rw [SigType.parts, List.forall_mem_cons] at h
    rw [SigType.render]
    refine quotesFrom_append ?_ (quotesFrom_render inner h.2)
    cases isMutable <;> exact quotesFrom_of_not_mem (by decide)
  | .array element length => fun h => by
    rw [SigType.parts, List.forall_mem_cons] at h
    obtain ⟨hown, hparts⟩ := h
    have hlength : QuotesFrom allowed length.toList := quotesFrom_of_mem (hown length (by simp [SigType.ownTexts]))
    have helement := quotesFrom_between (show '\'' ∉ "[".toList by decide) (quotesFrom_render element hparts)
      (show '\'' ∉ "; ".toList by decide)
    rw [SigType.render]
    exact quotesFrom_append (quotesFrom_append helement hlength) (quotesFrom_of_not_mem (by decide))
  | .slice element => fun h => by
    rw [SigType.parts, List.forall_mem_cons] at h
    rw [SigType.render]
    exact quotesFrom_between (by decide) (quotesFrom_render element h.2) (by decide)
  | .tuple elements => fun h => by
    rw [SigType.parts, List.forall_mem_cons] at h
    have hlist := quotesFrom_intercalate (show '\'' ∉ ", ".toList by decide) (quotesFrom_renderTypes elements h.2)
    rw [SigType.render]
    exact quotesFrom_between (by decide) (quotesFrom_tupleText hlist) (by decide)
  | .parenthesized inner => fun h => by
    rw [SigType.parts, List.forall_mem_cons] at h
    rw [SigType.render]
    exact quotesFrom_between (by decide) (quotesFrom_render inner h.2) (by decide)
  | .dynamic bounds => fun h => by
    rw [SigType.parts, List.forall_mem_cons] at h
    rw [SigType.render]
    exact quotesFrom_append (quotesFrom_of_not_mem (by decide))
      (quotesFrom_intercalate (by decide) (quotesFrom_renderBounds bounds h.2 h.1))
  | .abstract bounds => fun h => by
    rw [SigType.parts, List.forall_mem_cons] at h
    rw [SigType.render]
    exact quotesFrom_append (quotesFrom_of_not_mem (by decide))
      (quotesFrom_intercalate (by decide) (quotesFrom_renderBounds bounds h.2 h.1))
  | .function head params result => fun h => by
    rw [SigType.parts, List.forall_mem_cons] at h
    obtain ⟨hown, hparts⟩ := h
    have hhead : QuotesFrom allowed head.toList := quotesFrom_of_mem (hown head (by simp [SigType.ownTexts]))
    have hparams := quotesFrom_intercalate (show '\'' ∉ ", ".toList by decide)
      (quotesFrom_renderTypes params fun u hu => hparts u (List.mem_append_left _ hu))
    have hresult := quotesFrom_renderResult result fun u hu => hparts u (List.mem_append_right _ hu)
    have hopened := quotesFrom_append hhead (quotesFrom_of_not_mem (show '\'' ∉ "(".toList by decide))
    have hlist := quotesFrom_append hopened hparams
    rw [SigType.render]
    exact quotesFrom_append (quotesFrom_append hlist (quotesFrom_of_not_mem (by decide))) (quotesFrom_resultText hresult)
  | .never => fun _ => quotesFrom_of_not_mem (by decide)

theorem quotesFrom_renderTypes : (ts : List SigType) → (∀ u ∈ partsOfTypes ts, Allows allowed u) →
    ∀ x ∈ renderTypes .kept ts, QuotesFrom allowed x.toList
  | [] => fun _ _ hx => absurd hx List.not_mem_nil
  | t :: rest => fun h => by
    rw [partsOfTypes, List.forall_mem_append] at h
    rw [renderTypes, List.forall_mem_cons]
    exact ⟨quotesFrom_render t h.1, quotesFrom_renderTypes rest h.2⟩

theorem quotesFrom_renderResult : (result : Option SigType) → (∀ u ∈ partsOfResult result, Allows allowed u) →
    ∀ r, renderResult .kept result = some r → QuotesFrom allowed r.toList
  | none => fun _ _ hr => nomatch hr
  | some t => fun h r hr => by
    rw [← Option.some.inj hr]
    exact quotesFrom_render t h

theorem quotesFrom_renderArgs : (args : List GenericArg) → (∀ u ∈ partsOfArgs args, Allows allowed u) →
    (∀ s ∈ args.flatMap GenericArg.ownLifetimes ++ args.flatMap GenericArg.ownTexts, s ∈ allowed) →
    ∀ x ∈ renderArgs .kept args, QuotesFrom allowed x.toList
  | [] => fun _ _ _ hx => absurd hx List.not_mem_nil
  | .type t :: rest => fun h hown => by
    rw [partsOfArgs, List.forall_mem_append] at h
    rw [renderArgs, List.forall_mem_cons, GenericArg.render]
    exact ⟨quotesFrom_render t h.1, quotesFrom_renderArgs rest h.2 hown⟩
  | .lifetime l :: rest => fun h hown => by
    have hrest := quotesFrom_renderArgs rest h fun s hs => hown s (List.mem_cons_of_mem l hs)
    rw [renderArgs, List.forall_mem_cons, GenericArg.render]
    exact ⟨quotesFrom_of_mem (hown l List.mem_cons_self), hrest⟩
  | .binding name t :: rest => fun h hown => by
    have hname : name ∈ allowed := hown name (by simp [GenericArg.ownTexts])
    rw [partsOfArgs, List.forall_mem_append] at h
    have hrest := quotesFrom_renderArgs rest h.2 fun s hs => hown s (by
      simp only [List.flatMap_cons, GenericArg.ownLifetimes, GenericArg.ownTexts, List.nil_append, List.mem_append,
        List.mem_cons] at hs ⊢
      exact hs.imp_right .inr)
    rw [renderArgs, List.forall_mem_cons, GenericArg.render]
    exact ⟨quotesFrom_append (quotesFrom_append (quotesFrom_of_mem hname) (quotesFrom_of_not_mem (by decide)))
      (quotesFrom_render t h.1), hrest⟩
  | .const text :: rest => fun h hown => by
    have htext : text ∈ allowed := hown text (by simp [GenericArg.ownTexts])
    have hrest := quotesFrom_renderArgs rest h fun s hs => hown s (by
      simp only [List.flatMap_cons, GenericArg.ownLifetimes, GenericArg.ownTexts, List.nil_append, List.mem_append,
        List.mem_cons] at hs ⊢
      exact hs.imp_right .inr)
    rw [renderArgs, List.forall_mem_cons, GenericArg.render]
    exact ⟨quotesFrom_of_mem htext, hrest⟩

theorem quotesFrom_renderBounds : (bounds : List Bound) → (∀ u ∈ partsOfBounds bounds, Allows allowed u) →
    (∀ s ∈ bounds.flatMap Bound.ownLifetimes ++ bounds.flatMap Bound.ownTexts, s ∈ allowed) →
    ∀ x ∈ renderBounds .kept bounds, QuotesFrom allowed x.toList
  | [] => fun _ _ _ hx => absurd hx List.not_mem_nil
  | .trait binder isRelaxed t :: rest => fun h hown => by
    rw [partsOfBounds, List.forall_mem_append] at h
    have hrest := quotesFrom_renderBounds rest h.2 fun s hs => hown s (by
      simp only [List.flatMap_cons, Bound.ownLifetimes, Bound.ownTexts, List.nil_append, List.mem_append] at hs ⊢
      exact hs.imp_right .inr)
    have ht := quotesFrom_render t h.1
    have hmark : QuotesFrom allowed (if isRelaxed then "?" else "").toList := by
      cases isRelaxed <;> exact quotesFrom_of_not_mem (by decide)
    rw [renderBounds, List.forall_mem_cons]
    refine ⟨?_, hrest⟩
    cases binder with
    | none =>
      rw [Bound.render]
      exact quotesFrom_append (quotesFrom_append (quotesFrom_of_not_mem (by decide)) hmark) ht
    | some b =>
      have hb : b ∈ allowed := hown b (by simp [Bound.ownTexts])
      rw [Bound.render]
      have hbinder := quotesFrom_append (quotesFrom_of_mem hb)
        (quotesFrom_of_not_mem (show '\'' ∉ " ".toList by decide))
      exact quotesFrom_append (quotesFrom_append hbinder hmark) ht
  | .lifetime l :: rest => fun h hown => by
    have hrest := quotesFrom_renderBounds rest h fun s hs => hown s (List.mem_cons_of_mem l hs)
    rw [renderBounds, List.forall_mem_cons, Bound.render]
    exact ⟨quotesFrom_of_mem (hown l List.mem_cons_self), hrest⟩

end

/-- Every quotation mark in a type without its short lifetimes belongs to `'static` or `'_`, or to a kept text. -/
theorem quotesFrom_render_elided (t : SigType) :
    QuotesFrom (staticLifetime :: "'_" :: t.texts) (t.render .elided).toList := by
  rw [render_elided]
  refine quotesFrom_render t.withoutLifetimes fun u hu s hs => ?_
  rcases List.mem_append.mp hs with hs | hs
  · rcases lifetimes_withoutLifetimes t s (List.mem_flatMap.mpr ⟨u, hu, hs⟩) with rfl | rfl
    · simp
    · simp
  · have htext : s ∈ t.withoutLifetimes.texts := List.mem_flatMap.mpr ⟨u, hu, hs⟩
    rw [texts_withoutLifetimes] at htext
    exact List.mem_cons_of_mem _ (List.mem_cons_of_mem _ htext)

end TraitMock.Signature
