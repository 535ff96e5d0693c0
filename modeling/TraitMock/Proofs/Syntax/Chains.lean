import TraitMock.Proofs.Syntax.Functions

namespace TraitMock.Syntax.Reader

section Chains

variable {first : String} {ms : List String} {ss us : List Shape}

/-- Shapes of an operand that begins with the name `first`, with fields and calls behind it. -/
inductive IsChain (first : String) : List Shape → Prop where
  | operand {ss : List Shape} (h : IsPrimary ("." :: "(" :: stops) ss) (hhead : ss.head? = some (.word first)) :
    IsChain first ss
  | applied {ss us : List Shape} (h : IsChain first ss) (hus : IsApplied us) : IsChain first (ss ++ us)

theorem isChain_path (hfirst : first ∉ reservedWords) (more : List String) :
    IsChain first (pathShapes (first :: more)) :=
  .operand (isPrimary_path hfirst more) rfl

theorem isChain_invocation (hfirst : first ∉ reservedWords) (more : List String) {o c : String}
    (hclose : closing? o = some c) {inner : List Shape} (hinner : Balanced inner) :
    IsChain first (pathShapes (first :: more) ++ .mark "!" :: .mark o :: (inner ++ [.mark c])) :=
  .operand (isPrimary_invocation hfirst more hclose hinner) rfl

theorem IsChain.field (h : IsChain first ss) (x : String) : IsChain first (ss ++ [.mark ".", .word x]) :=
  h.applied (isApplied_field x)

theorem IsChain.call (h : IsChain first ss) {items : List (List Shape)} (hitems : ∀ us ∈ items, IsExpression .free us) :
    IsChain first (ss ++ listShapes items []) :=
  h.applied (isApplied_call hitems (.inl rfl))

theorem IsChain.head? (h : IsChain first ss) : ss.head? = some (.word first) := by
  induction h with
  | operand _ hhead => exact hhead
  | applied _ _ ih =>
    obtain ⟨rest, rfl⟩ := List.head?_eq_some_iff.mp ih
    rfl

theorem IsChain.exists_parts (h : IsChain first ss) : ∃ (front : List Shape) (parts : List (List Shape)),
    ss = front ++ parts.flatten ∧ IsPrimary ("." :: "(" :: stops) front ∧ ∀ us ∈ parts, IsApplied us := by
  induction h with
  | @operand ss hprimary _ => exact ⟨ss, [], by simp, hprimary, by simp⟩
  | @applied _ us _ hus ih =>
    obtain ⟨front, parts, rfl, hfront, hparts⟩ := ih
    refine ⟨front, parts ++ [us], by simp, hfront, fun vs hvs => ?_⟩
    rcases List.mem_append.mp hvs with hvs | hvs
    · exact hparts vs hvs
    · exact List.mem_singleton.mp hvs ▸ hus

theorem IsChain.isTerm (h : IsChain first ss) : IsTerm stops ss := by
  obtain ⟨front, parts, rfl, hfront, hparts⟩ := h.exists_parts
  exact hfront.isTerm hparts (fun _ => by simp) (fun _ m hm => by simp [hm]) (by decide)

/-- Behind a field or a call, more can follow than behind a name alone. -/
theorem IsChain.isTerm_applied (h : IsChain first ss) (hus : IsApplied us)
    (hend : ∀ m ∈ ms, m ∉ ["?", ".", "(", "[", "::"]) : IsTerm ms (ss ++ us) := by
  obtain ⟨front, parts, rfl, hfront, hparts⟩ := h.exists_parts
  have hall : ∀ vs ∈ parts ++ [us], IsApplied vs := by
    intro vs hvs
    rcases List.mem_append.mp hvs with hvs | hvs
    · exact hparts vs hvs
    · exact List.mem_singleton.mp hvs ▸ hus
  have hterm : IsTerm ms (front ++ (parts ++ [us]).flatten) :=
    hfront.isTerm hall (fun _ => by simp) (fun hnil => absurd hnil (by simp)) hend
  simpa using hterm

theorem IsChain.isExpression (h : IsChain first ss) : IsExpression .free ss :=
  h.isTerm.isExpression fun _ hm => hm

theorem IsChain.isExpression_beforeBlock (h : IsChain first ss) (hus : IsApplied us) :
    IsExpression .beforeBlock (ss ++ us) := by
  have hterm : IsTerm ["\x7b"] (ss ++ us) := h.isTerm_applied hus (by decide)
  exact hterm.isExpression fun _ hm => hm

theorem IsChain.isPlainExpression (h : IsChain first ss) (hfirst : first ∉ "let" :: "as" :: "else" :: blockWords) :
    IsPlainExpression ss :=
  ⟨h.isExpression, _, h.head?, .inl ⟨rfl, hfirst⟩⟩

theorem IsChain.startsOperand (h : IsChain first ss) : ∃ s ∈ ss.head?, StartsOperand s := by
  obtain ⟨front, parts, rfl, hfront, _⟩ := h.exists_parts
  obtain ⟨s, hs, hstart⟩ := hfront.start
  obtain ⟨rest, rfl⟩ := List.head?_eq_some_iff.mp hs
  exact ⟨s, rfl, hstart⟩

/-- An operand by itself, in front of what it can stand before. -/
theorem IsPrimary.isTerm_alone {ns : List String} (h : IsPrimary ms ss) (hns : ∀ m ∈ ns, m ∈ ms)
    (hend : ∀ m ∈ ns, m ∉ ["?", ".", "(", "[", "::"]) : IsTerm ns ss := by
  have hterm : IsTerm ns (ss ++ [].flatten) := h.isTerm (by simp) (by simp) (fun _ => hns) hend
  simpa using hterm

theorem IsPrimary.isExpression {p : Place} (h : IsPrimary ms ss) (hp : ∀ m ∈ behind p, m ∈ ms)
    (hend : ∀ m ∈ behind p, m ∉ ["?", ".", "(", "[", "::"]) : IsExpression p ss :=
  (h.isTerm_alone hp hend).isExpression fun _ hm => hm

theorem isExpression_number (digits : String) : IsExpression .free [⟨.number, digits, false⟩] :=
  (isPrimary_number digits).isExpression (by decide) (by decide)

theorem isExpression_string (text : String) : IsExpression .free [⟨.string, text, false⟩] :=
  (isPrimary_string text).isExpression (by decide) (by decide)

end Chains

end TraitMock.Syntax.Reader
