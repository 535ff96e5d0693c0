import TraitMock.Proofs.Modules.Imports
import TraitMock.Proofs.Signature.Parts
import TraitMock.Proofs.Syntax.BoundedTypes
import TraitMock.Signature.Printer

namespace TraitMock.Signature

open Syntax (Balanced Closes Flat IsGap IsLifetime IsWord Shape Spells SpellsBefore closes_text isGap_blank
  isGap_nil primitives separates spells_lifetime spells_word)
open Syntax.Reader

section Texts

/-- A path of words that can stand for a type. -/
def IsPathText (p : String) : Prop := AreWords (Text.segments p) ∧ IsTypePath (Text.segments p)

instance : DecidablePred IsPathText := fun _ => inferInstanceAs (Decidable (_ ∧ _))

/-- A text that is read as the length of an array. -/
def IsLengthText (text : String) : Prop := ∃ ss, Spells text ss ∧ IsLength ss

/-- A text that is read as a constant in angle brackets. -/
def IsConstText (text : String) : Prop := ∃ ss, Spells text ss ∧ IsConst ss

/-- The name of an associated type. -/
structure IsBindingName (name : String) : Prop where
  word : IsWord name
  path : IsTypePath [name]
  other : name ∉ primitives

/-- `for` with generic parameters behind it. -/
def IsBinderText (text : String) : Prop := ∃ generics, Spells text (.word "for" :: generics) ∧ IsGenerics generics

/-- What can stand in front of the parameters of a function type, apart from lifetimes that it is quantified over. -/
def IsCalleeText (text : String) : Prop := ∃ callee, Spells text callee ∧ IsCallee callee

/-- What can stand in front of the parameters of a function type. -/
def IsHeadText (text : String) : Prop :=
  ∃ binder callee, Spells text (binder ++ callee) ∧ IsBinder binder ∧ IsCallee callee

/-- Texts with a separator between them spell the shapes of each with that of the separator between them. -/
theorem spells_intercalate {sep : String} {s : Shape} (hsep : Closes sep [s])
    (hseparates : ∀ more, separates (sep.toList ++ more) = true) {texts : List String} {items : List (List Shape)}
    (h : List.Forall₂ Spells texts items) : Spells (sep.intercalate texts) (separatedBy s items) := by
  induction h with
  | nil => exact .of_isGap isGap_nil
  | @cons text item texts items hfirst hmore ih =>
    cases hmore with
    | nil => simpa [separatedBy] using hfirst
    | @cons second other texts items hsecond hothers =>
      have hne : second :: texts ≠ [] := List.cons_ne_nil second texts
      rw [String.intercalate_cons_of_ne_nil hne]
      have hfront := (hfirst.append hsep fun more _ => hseparates more).append ih fun _ _ => trivial
      simpa [separatedBy] using hfront

theorem spells_commas {texts : List String} {items : List (List Shape)} (h : List.Forall₂ Spells texts items) :
    Spells (", ".intercalate texts) (separatedBy (.mark ",") items) :=
  spells_intercalate (closes_text (by decide) (by decide)) (fun _ => rfl) h

theorem spells_sum {texts : List String} {items : List (List Shape)} (h : List.Forall₂ Spells texts items) :
    Spells (" + ".intercalate texts) (separatedBy (.mark "+") items) :=
  spells_intercalate (closes_text (by decide) (by decide)) (fun _ => rfl) h

private theorem spells_args {texts : List String} {items : List (List Shape)} (h : List.Forall₂ Spells texts items) :
    Spells (argsText texts) (argsShapes items) := by
  cases h with
  | nil => exact .of_isGap isGap_nil
  | cons hfirst hmore =>
    have hopening : Closes "<" [.mark "<"] := closes_text (by decide) (by decide)
    have hclosing : Closes ">" [.mark ">"] := closes_text (by decide) (by decide)
    have hall := (hopening.append (spells_commas (.cons hfirst hmore)) fun _ _ => trivial).append hclosing fun _ _ => rfl
    rw [argsText, if_neg (List.cons_ne_nil _ _), argsShapes, if_neg (List.cons_ne_nil _ _)]
    exact hall.weaken fun _ _ => trivial

private theorem separates_args (texts : List String) {more : List Char} (h : separates more = true) :
    separates ((argsText texts).toList ++ more) = true := by
  unfold argsText
  split
  · exact h
  · rw [String.toList_append, String.toList_append, List.append_assoc, List.append_assoc]
    rfl

theorem spells_path {p : String} (h : AreWords (Text.segments p)) : Spells p (pathShapes (Text.segments p)) := by
  have hjoin : ∀ segs : List String, segs ≠ [] → AreWords segs → Spells (Text.joinPath segs) (pathShapes segs) := by
    intro segs hne hwords
    induction segs with
    | nil => exact absurd rfl hne
    | cons first more ih =>
      obtain ⟨hfirst, hmore⟩ := List.forall_mem_cons.mp hwords
      cases more with
      | nil => exact spells_word hfirst
      | cons second others =>
        have hcolons : Closes "::" [.mark "::"] := closes_text (by decide) (by decide)
        have hall := ((spells_word hfirst).append hcolons fun _ _ => rfl).append (ih (by simp) hmore) fun _ _ => trivial
        rw [Text.joinPath_cons (by simp)]
        simpa [pathShapes] using hall
  have hsegments := hjoin (Text.segments p) (Text.segments_ne_nil p) h
  rwa [Text.joinPath_segments] at hsegments

end Texts

section Conditions

/-- A lifetime, constant or name among generic arguments is well-formed. -/
def GenericArg.IsSound : GenericArg → Prop
  | .type _ => True
  | .lifetime l => IsLifetime l
  | .binding name _ => IsBindingName name
  | .const text => IsConstText text

/-- Bounds that are joined by a plus sign. They can only stand where no other bound can follow. -/
def SigType.IsSum : SigType → Prop
  | .dynamic (_ :: _ :: _) => True
  | .abstract (_ :: _ :: _) => True
  | _ => False

/-- A type that can stand for a trait. -/
def SigType.IsTrait : SigType → Prop
  | .path p _ => p ∉ primitives
  | .function .. => True
  | .parenthesized _ => True
  | .tuple elements => elements ≠ []
  | _ => False

/-- A bound that can stand behind others: it is behind no quantified lifetimes. -/
def Bound.IsPlain : Bound → Prop
  | .trait (some _) _ _ => False
  | _ => True

/-- The bound that stands right behind `dyn`. -/
inductive Bound.LeadsDynamic : Bound → Prop where
  | trait {t : SigType} (h : t.IsTrait) : LeadsDynamic (.trait none false t)
  | quantified (binder p : String) (args : List GenericArg) : LeadsDynamic (.trait (some binder) false (.path p args))

/-- The bound that stands right behind `impl`, where no lifetimes are quantified; others follow a lifetime. -/
inductive Bound.LeadsAbstract : Bound → List Bound → Prop where
  | trait {t : SigType} {more : List Bound} (h : t.IsTrait)
    (hhead : ∀ head params result, t = .function head params result → IsCalleeText head) :
    LeadsAbstract (.trait none false t) more
  | relaxed (t : SigType) (more : List Bound) : LeadsAbstract (.trait none true t) more
  | lifetime (l : String) {more : List Bound} (hmore : more ≠ []) : LeadsAbstract (.lifetime l) more

/-- What is written at a bound is well-formed. -/
def Bound.IsSound : Bound → Prop
  | .lifetime l => IsLifetime l
  | .trait binder _ t => (∀ b ∈ binder, IsBinderText b) ∧ ¬t.IsSum

/-- What is written at a type is well-formed, apart from the types inside it. -/
def SigType.IsSound : SigType → Prop
  | .path p args => IsPathText p ∧ ∀ a ∈ args, a.IsSound
  | .reference l _ inner => (∀ x ∈ l, IsLifetime x) ∧ ¬inner.IsSum
  | .pointer _ inner => ¬inner.IsSum
  | .array _ length => IsLengthText length
  | .dynamic bounds => (∀ b ∈ bounds, b.IsSound) ∧
      ∃ first more, bounds = first :: more ∧ first.LeadsDynamic ∧ ∀ b ∈ more, b.IsPlain
  | .abstract bounds => (∀ b ∈ bounds, b.IsSound) ∧
      ∃ first more, bounds = first :: more ∧ first.LeadsAbstract more ∧ ∀ b ∈ more, b.IsPlain
  | .function head _ result => IsHeadText head ∧ ∀ r ∈ result, ¬r.IsSum
  | _ => True

/-- All parts of a type are well-formed. -/
def SigType.IsWritten (t : SigType) : Prop := ∀ u ∈ t.parts, u.IsSound

end Conditions

section Reading

/-- Shapes by which a type is read wherever it can stand. -/
structure SigType.ReadsAs (t : SigType) (ss : List Shape) : Prop where
  isType : IsType ss
  isSingle : ¬t.IsSum → IsSingle typeMarks ss
  isBound : t.IsTrait → IsBound ss
  quantified : ∀ p args, t = .path p args → ∀ generics, IsGenerics generics → IsBound (.word "for" :: generics ++ ss)
  callee : t.IsTrait → (∀ head params result, t = .function head params result → IsCalleeText head) →
    ∃ s ∈ ss.head?, s.kind = .word ∧ s.text ≠ "for" ∨ s.kind = .mark ∧ s.text = "("
  summands : t.isAbstract = false → ∃ first more, ss = first ++ plusShapes more ∧ IsSingle typeMarks first ∧
    ∀ us ∈ more, IsOperand us

/-- Shapes by which a bound is read where it stands. -/
def Bound.ReadsAs : Bound → List Shape → Prop
  | .lifetime _, ss => ∃ l, ss = [⟨.lifetime, l, false⟩]
  | .trait none false t, ss => t.ReadsAs ss ∧ ¬t.IsSum
  | .trait none true _, ss => ∃ us, ss = .mark "?" :: us ∧ IsSingle typeMarks us
  | .trait (some _) false t, ss =>
    ∃ generics us, ss = .word "for" :: generics ++ us ∧ IsGenerics generics ∧ t.ReadsAs us
  | .trait (some _) true _, _ => True

namespace SigType.ReadsAs

variable {t : SigType} {ss : List Shape}

theorem of_isSingle (h : IsSingle typeMarks ss) (htrait : t.IsTrait → IsBound ss)
    (hpath : ∀ p args, t = .path p args → ∀ generics, IsGenerics generics → IsBound (.word "for" :: generics ++ ss))
    (hcallee : t.IsTrait → (∀ head params result, t = .function head params result → IsCalleeText head) →
      ∃ s ∈ ss.head?, s.kind = .word ∧ s.text ≠ "for" ∨ s.kind = .mark ∧ s.text = "(") : t.ReadsAs ss where
  isType := (h.mono fun _ => List.mem_cons_of_mem _).isType
  isSingle _ := h
  isBound := htrait
  quantified := hpath
  callee := hcallee
  summands _ := ⟨ss, [], by simp [plusShapes], h, by simp⟩

/-- What is neither a path nor can stand for a trait, but may be made of several bounds. -/
theorem of_bounds (htype : IsType ss) (hsingle : ¬t.IsSum → IsSingle typeMarks ss) (htrait : ¬t.IsTrait)
    (hpath : ∀ p args, t ≠ .path p args) (hsummands : t.isAbstract = false → ∃ first more, ss = first ++ plusShapes more ∧
      IsSingle typeMarks first ∧ ∀ us ∈ more, IsOperand us) : t.ReadsAs ss where
  isType := htype
  isSingle := hsingle
  isBound ht := absurd ht htrait
  quantified p args heq := absurd heq (hpath p args)
  callee ht := absurd ht htrait
  summands := hsummands

/-- What is neither a path nor can stand for a trait. -/
theorem of_other (h : IsSingle typeMarks ss) (htrait : ¬t.IsTrait) (hpath : ∀ p args, t ≠ .path p args) : t.ReadsAs ss :=
  of_isSingle h (absurd · htrait) (fun p args ht => absurd ht (hpath p args)) (absurd · htrait)

theorem path {p : String} (hp : IsPathText p) {items : List (List Shape)} (hitems : ∀ us ∈ items, IsArgument us)
    (args : List GenericArg) : (SigType.path p args).ReadsAs (pathShapes (Text.segments p) ++ argsShapes items) := by
  refine of_isSingle (isSingle_path hp.2 hitems) (fun htrait => ?_) (fun _ _ _ generics hgenerics => ?_) fun _ _ => ?_
  · refine isBound_path hp.2 hitems fun w hw => ?_
    have hjoin := Text.joinPath_segments p
    rw [hw] at hjoin
    rwa [show w = p from hjoin]
  · exact isBound_quantifiedPath hgenerics hp.2 hitems
  · obtain ⟨first, more, hsegments⟩ := List.exists_cons_of_ne_nil hp.2.ne_nil
    have hfirst : first ∉ typeWords := hp.2.head first (by rw [hsegments]; rfl)
    rw [hsegments]
    exact ⟨_, rfl, .inl ⟨rfl, fun hfor => hfirst (by rw [show first = "for" from hfor]; decide)⟩⟩

theorem function {binder callee : List Shape} (hbinder : IsBinder binder) (hcallee : IsCallee callee)
    {params : List (List Shape)} (hparams : ∀ us ∈ params, IsType us) {result : List Shape} (hresult : IsResult result)
    {head : String} (hhead : IsCalleeText head → binder = []) (ps : List SigType) (r : Option SigType) :
    (SigType.function head ps r).ReadsAs (binder ++ (callee ++ callShapes params result)) := by
  refine of_isSingle (isSingle_function hbinder hcallee hparams hresult) (fun _ => ?_) (fun _ _ => by simp) fun _ hplain => ?_
  · cases hbinder with
    | nil => exact isBound_function hcallee hparams hresult
    | lifetimes hne hcomma =>
      exact isBound_quantifiedFunction (isGenerics_lifetimes hne hcomma) hcallee hparams hresult
  · obtain rfl := hhead (hplain head ps r rfl)
    obtain ⟨w, us, rfl, hw⟩ := hcallee.exists_word
    exact ⟨_, rfl, .inl ⟨rfl, fun hfor => hw (by rw [show w = "for" from hfor]; decide)⟩⟩

theorem tuple {items : List (List Shape)} (hitems : ∀ us ∈ items, IsType us) {comma : List Shape}
    (hcomma : comma = [] ∨ items ≠ [] ∧ comma = [.mark ","]) (htrait : t.IsTrait → items ≠ [])
    (hpath : ∀ p args, t ≠ .path p args) :
    t.ReadsAs (.mark "(" :: (separatedBy (.mark ",") items ++ (comma ++ [.mark ")"]))) := by
  refine of_isSingle (isSingle_parenthesized hitems hcomma) (fun ht => ?_) (fun p args ht => absurd ht (hpath p args))
    fun _ _ => ⟨_, rfl, .inr ⟨rfl, rfl⟩⟩
  exact isBound_parenthesized (htrait ht) hitems (hcomma.imp_right (·.2))

end SigType.ReadsAs

variable {first : Bound} {more : List Bound} {b : Bound} {ss : List Shape}

theorem Bound.ReadsAs.isOperand (h : b.ReadsAs ss) (hplain : b.IsPlain) : IsOperand ss := by
  match b, h, hplain with
  | .lifetime _, ⟨l, hl⟩, _ => exact hl ▸ isOperand_lifetime l
  | .trait none false t, ⟨ht, hsum⟩, _ => exact (ht.isSingle hsum).isOperand
  | .trait none true t, ⟨us, hus, hsingle⟩, _ => exact hus ▸ isOperand_relaxed hsingle

/-- Behind the first bound, each is an operand of a plus sign. -/
theorem isOperand_of_plain {items : List (List Shape)} (h : List.Forall₂ Bound.ReadsAs more items)
    (hplain : ∀ b ∈ more, b.IsPlain) : ∀ us ∈ items, IsOperand us := by
  induction h with
  | nil => simp
  | cons hfirst _ ih =>
    obtain ⟨hb, hrest⟩ := List.forall_mem_cons.mp hplain
    exact List.forall_mem_cons.mpr ⟨hfirst.isOperand hb, ih hrest⟩

private theorem reads_dynamic {items : List (List Shape)} (h : List.Forall₂ Bound.ReadsAs (first :: more) items)
    (hlead : first.LeadsDynamic) (hplain : ∀ b ∈ more, b.IsPlain) :
    (SigType.dynamic (first :: more)).ReadsAs (.word "dyn" :: separatedBy (.mark "+") items) := by
  obtain ⟨ss, rest, hfirst, hmore, rfl⟩ := List.forall₂_cons_left_iff.mp h
  have hoperands := isOperand_of_plain hmore hplain
  have hbound : IsBound ss := by
    cases hlead with
    | trait ht => exact hfirst.1.isBound ht
    | quantified binder p args =>
      obtain ⟨generics, us, rfl, hgenerics, hus⟩ := hfirst
      exact hus.quantified p args rfl generics hgenerics
  have hsingle := isSingle_dyn hbound
  refine .of_bounds (hsingle.isType_sum hoperands) (fun hsum => ?_) id (fun _ _ => by simp)
    fun _ => ⟨_, rest, rfl, hsingle, hoperands⟩
  cases hmore with
  | nil => simpa [separatedBy] using hsingle
  | cons _ _ => exact absurd trivial hsum

private theorem reads_abstract {items : List (List Shape)} (h : List.Forall₂ Bound.ReadsAs (first :: more) items)
    (hlead : first.LeadsAbstract more) (hplain : ∀ b ∈ more, b.IsPlain) :
    (SigType.abstract (first :: more)).ReadsAs (.word "impl" :: separatedBy (.mark "+") items) := by
  obtain ⟨ss, rest, hfirst, hmore, rfl⟩ := List.forall₂_cons_left_iff.mp h
  have hoperands := isOperand_of_plain hmore hplain
  have habstract : (SigType.abstract (first :: more)).isAbstract ≠ false := by simp [SigType.isAbstract]
  have hsum (hsingle : IsSingle typeMarks (.word "impl" :: ss)) :
      (SigType.abstract (first :: more)).ReadsAs (.word "impl" :: separatedBy (.mark "+") (ss :: rest)) := by
    refine .of_bounds (hsingle.isType_sum hoperands) (fun hsum => ?_) id (fun _ _ => by simp) fun h => absurd h habstract
    cases hmore with
    | nil => simpa [separatedBy] using hsingle
    | cons _ _ => exact absurd trivial hsum
  cases hlead with
  | trait ht hhead => exact hsum (isSingle_impl (hfirst.1.isBound ht) (hfirst.1.callee ht hhead))
  | relaxed t =>
    obtain ⟨us, rfl, hus⟩ := hfirst
    exact hsum (isSingle_implRelaxed hus)
  | lifetime l hne =>
    obtain ⟨l, rfl⟩ := hfirst
    cases hmore with
    | nil => exact absurd rfl hne
    | cons _ _ =>
      exact .of_bounds (isSingle_implLifetime l hoperands).isType (fun hsum => absurd trivial hsum) id (fun _ _ => by simp)
        fun h => absurd h habstract

end Reading

section Rendering

variable (s : LifetimeStyle)

theorem isLifetime_lifetime {l : String} (h : IsLifetime l) : IsLifetime (s.lifetime l) := by
  unfold LifetimeStyle.lifetime
  split
  · exact ⟨['_'], rfl, by decide⟩
  · exact h

private theorem closes_reference {l : Option String} (h : ∀ x ∈ l, IsLifetime x) (isMutable : Bool) :
    ∃ l', Closes ("&" ++ s.ofReference l ++ (if isMutable then "mut " else "")) (referenceShapes l' isMutable) := by
  have hmark : Closes "&" [.mark "&"] := closes_text (by decide) (by decide)
  have hmut : Closes (if isMutable then "mut " else "") (if isMutable then [.word "mut"] else []) := by
    cases isMutable with
    | false => exact .of_isGap isGap_nil
    | true => exact closes_text (by decide) (by decide)
  have hlifetime : ∃ l' : Option String, Closes (s.ofReference l) (l'.toList.map (⟨.lifetime, ·, false⟩)) := by
    cases l with
    | none => exact ⟨none, .of_isGap isGap_nil⟩
    | some l =>
      rw [LifetimeStyle.ofReference]
      split
      · have hblank : Closes " " [] := .of_isGap (isGap_blank (by decide))
        exact ⟨some l, (spells_lifetime (h l rfl)).append hblank fun _ _ => rfl⟩
      · exact ⟨none, .of_isGap isGap_nil⟩
  obtain ⟨l', hl'⟩ := hlifetime
  refine ⟨l', ?_⟩
  simpa [referenceShapes] using (hmark.append hl' fun _ _ => trivial).append hmut fun _ _ => trivial

private theorem closes_questionMark (isRelaxed : Bool) :
    Closes (if isRelaxed then "?" else "") (if isRelaxed then [.mark "?"] else []) := by
  cases isRelaxed with
  | false => exact .of_isGap isGap_nil
  | true => exact closes_text (by decide) (by decide)

theorem closes_bracketed {text : String} {ss : List Shape} (h : Spells text ss) :
    Closes ("[" ++ text ++ "]") (.mark "[" :: (ss ++ [.mark "]"])) := by
  have hopening : Closes "[" [.mark "["] := closes_text (by decide) (by decide)
  have hclosing : Closes "]" [.mark "]"] := closes_text (by decide) (by decide)
  exact (hopening.append h fun _ _ => trivial).append hclosing fun _ _ => rfl

private theorem closes_array {element length : String} {ss len : List Shape} (helement : Spells element ss)
    (hlength : Spells length len) :
    Closes ("[" ++ element ++ "; " ++ length ++ "]") (.mark "[" :: (ss ++ (.mark ";" :: (len ++ [.mark "]"])))) := by
  have hmid : Closes "; " [.mark ";"] := closes_text (by decide) (by decide)
  have hinner := (helement.append hmid fun _ _ => rfl).append hlength fun _ _ => trivial
  simpa [String.append_assoc] using closes_bracketed hinner

/-- In the parentheses of a tuple, a single element has a comma behind it. -/
theorem closes_tuple {texts : List String} {items : List (List Shape)} (h : List.Forall₂ Spells texts items) :
    ∃ comma, (comma = [] ∨ items ≠ [] ∧ comma = [.mark ","]) ∧ Closes ("(" ++ tupleText texts ++ ")")
      (.mark "(" :: (separatedBy (.mark ",") items ++ (comma ++ [.mark ")"]))) := by
  have hopening : Closes "(" [.mark "("] := closes_text (by decide) (by decide)
  have hclosing : Closes ")" [.mark ")"] := closes_text (by decide) (by decide)
  have hcomma : ∃ comma, (comma = [] ∨ items ≠ [] ∧ comma = [.mark ","]) ∧
      Closes (if texts.length = 1 then "," else "") comma := by
    split
    · rename_i hone
      have hne : items ≠ [] := by
        rintro rfl
        cases h
        cases hone
      exact ⟨_, .inr ⟨hne, rfl⟩, closes_text (by decide) (by decide)⟩
    · exact ⟨[], .inl rfl, .of_isGap isGap_nil⟩
  obtain ⟨comma, hcomma, hcloses⟩ := hcomma
  have hend := hcloses.append hclosing fun _ _ => trivial
  have hlist := (spells_commas h).append hend fun more _ => by
    rw [String.toList_append, List.append_assoc]
    split <;> rfl
  refine ⟨comma, hcomma, ?_⟩
  simpa [tupleText, String.append_assoc] using hopening.append hlist fun _ _ => trivial

theorem IsHeadText.exists_callee {head : String} (h : IsHeadText head) :
    ∃ binder callee, Spells head (binder ++ callee) ∧ IsBinder binder ∧ IsCallee callee ∧
      (IsCalleeText head → binder = []) := by
  -- a head without quantified lifetimes is taken as one
  by_cases hplain : IsCalleeText head
  · obtain ⟨callee, hcallee, hread⟩ := hplain
    exact ⟨[], callee, hcallee, .nil, hread, fun _ => rfl⟩
  · obtain ⟨binder, callee, hcallee, hbinder, hread⟩ := h
    exact ⟨binder, callee, hcallee, hbinder, hread, fun htext => absurd htext hplain⟩

/-- The parameters and the result of a function type. -/
theorem spells_call {texts : List String} {items : List (List Shape)} (h : List.Forall₂ Spells texts items)
    {result : String} {us : List Shape} (hresult : Spells result us) :
    Spells ("(" ++ ", ".intercalate texts ++ ")" ++ result) (callShapes items us) := by
  have hopening : Closes "(" [.mark "("] := closes_text (by decide) (by decide)
  have hclosing : Closes ")" [.mark ")"] := closes_text (by decide) (by decide)
  have hlist := (hopening.append (spells_commas h) fun _ _ => trivial).append hclosing fun _ _ => rfl
  simpa [callShapes] using hlist.append hresult fun _ _ => trivial

mutual

/-- A well-formed type is written so that it is read as a type. -/
theorem exists_reads : (t : SigType) → t.IsWritten → ∃ ss, Spells (t.render s) ss ∧ t.ReadsAs ss
  | .path p args => fun h => by
    rw [SigType.IsWritten, SigType.parts, List.forall_mem_cons] at h
    obtain ⟨⟨hp, hown⟩, hparts⟩ := h
    obtain ⟨items, hspells, hitems⟩ := exists_readsArgs args hparts hown
    rw [SigType.render]
    exact ⟨_, (spells_path hp.1).append (spells_args hspells) fun _ hmore => separates_args _ hmore,
      .path hp hitems args⟩
  | .reference l isMutable inner => fun h => by
    rw [SigType.IsWritten, SigType.parts, List.forall_mem_cons] at h
    obtain ⟨⟨hl, hsum⟩, hparts⟩ := h
    obtain ⟨ss, hspells, hreads⟩ := exists_reads inner hparts
    obtain ⟨l', hfront⟩ := closes_reference s hl isMutable
    rw [SigType.render]
    exact ⟨_, hfront.append hspells fun _ _ => trivial,
      .of_other (isSingle_reference l' isMutable (hreads.isSingle hsum)) id (fun _ _ => by simp)⟩
  | .pointer isMutable inner => fun h => by
    rw [SigType.IsWritten, SigType.parts, List.forall_mem_cons] at h
    obtain ⟨hsum, hparts⟩ := h
    obtain ⟨ss, hspells, hreads⟩ := exists_reads inner hparts
    have hfront : Closes (if isMutable then "*mut " else "*const ")
        [.mark "*", .word (if isMutable then "mut" else "const")] := by
      cases isMutable <;> exact closes_text (by decide) (by decide)
    rw [SigType.render]
    exact ⟨_, hfront.append hspells fun _ _ => trivial,
      .of_other (isSingle_pointer isMutable (hreads.isSingle hsum)) id (fun _ _ => by simp)⟩
  | .array element length => fun h => by
    rw [SigType.IsWritten, SigType.parts, List.forall_mem_cons] at h
    obtain ⟨⟨len, hlen, hlength⟩, hparts⟩ := h
    obtain ⟨ss, hspells, hreads⟩ := exists_reads element hparts
    rw [SigType.render]
    exact ⟨_, (closes_array hspells hlen).spells,
      .of_other (isSingle_array hreads.isType hlength) id (fun _ _ => by simp)⟩
  | .slice element => fun h => by
    rw [SigType.IsWritten, SigType.parts, List.forall_mem_cons] at h
    obtain ⟨ss, hspells, hreads⟩ := exists_reads element h.2
    rw [SigType.render]
    exact ⟨_, (closes_bracketed hspells).spells, .of_other (isSingle_slice hreads.isType) id (fun _ _ => by simp)⟩
  | .tuple elements => fun h => by
    rw [SigType.IsWritten, SigType.parts, List.forall_mem_cons] at h
    obtain ⟨items, hspells, hitems⟩ := exists_readsTypes elements h.2
    obtain ⟨comma, hcomma, hcloses⟩ := closes_tuple hspells
    have hne : elements ≠ [] → items ≠ [] := by
      rintro hne rfl
      cases elements with
      | nil => exact hne rfl
      | cons t rest => simp [renderTypes] at hspells
    rw [SigType.render]
    exact ⟨_, hcloses.spells, .tuple hitems hcomma hne (fun _ _ => by simp)⟩
  | .parenthesized inner => fun h => by
    rw [SigType.IsWritten, SigType.parts, List.forall_mem_cons] at h
    obtain ⟨ss, hspells, hreads⟩ := exists_reads inner h.2
    have hopening : Closes "(" [.mark "("] := closes_text (by decide) (by decide)
    have hclosing : Closes ")" [.mark ")"] := closes_text (by decide) (by decide)
    have hall := (hopening.append hspells fun _ _ => trivial).append hclosing fun _ _ => rfl
    have htuple := SigType.ReadsAs.tuple (t := .parenthesized inner) (List.forall_mem_singleton.mpr hreads.isType) (.inl rfl)
      (by simp) (fun _ _ => by simp)
    exact ⟨_, hall.spells, by simpa [separatedBy] using htuple⟩
  | .dynamic bounds => fun h => by
    rw [SigType.IsWritten, SigType.parts, List.forall_mem_cons] at h
    obtain ⟨⟨hown, first, more, rfl, hlead, hplain⟩, hparts⟩ := h
    obtain ⟨items, hspells, hreads⟩ := exists_readsBounds (first :: more) hparts hown
    have hword : Closes "dyn " [.word "dyn"] := closes_text (by decide) (by decide)
    rw [SigType.render]
    exact ⟨_, hword.append (spells_sum hspells) fun _ _ => trivial, reads_dynamic hreads hlead hplain⟩
  | .abstract bounds => fun h => by
    rw [SigType.IsWritten, SigType.parts, List.forall_mem_cons] at h
    obtain ⟨⟨hown, first, more, rfl, hlead, hplain⟩, hparts⟩ := h
    obtain ⟨items, hspells, hreads⟩ := exists_readsBounds (first :: more) hparts hown
    have hword : Closes "impl " [.word "impl"] := closes_text (by decide) (by decide)
    rw [SigType.render]
    exact ⟨_, hword.append (spells_sum hspells) fun _ _ => trivial, reads_abstract hreads hlead hplain⟩
  | .function head params result => fun h => by
    rw [SigType.IsWritten, SigType.parts, List.forall_mem_cons, List.forall_mem_append] at h
    obtain ⟨⟨hhead, hsum⟩, hparams, hresult⟩ := h
    obtain ⟨items, hspells, hitems⟩ := exists_readsTypes params hparams
    obtain ⟨us, hus, hreturn⟩ := exists_readsResult result hresult hsum
    obtain ⟨binder, callee, hcallee, hbinder, hread, hnil⟩ := hhead.exists_callee
    have hall := hcallee.append (spells_call hspells hus) fun _ _ => by
      simp only [String.toList_append, List.append_assoc]
      rfl
    rw [SigType.render]
    exact ⟨_, by simpa [String.append_assoc] using hall, .function hbinder hread hitems hreturn hnil params result⟩
  | .never => fun _ => by
    have hmark : Closes "!" [.mark "!"] := closes_text (by decide) (by decide)
    rw [SigType.render]
    exact ⟨_, hmark.weaken fun _ _ => trivial, .of_other isSingle_never id (fun _ _ => by simp)⟩

theorem exists_readsTypes : (ts : List SigType) → (∀ u ∈ partsOfTypes ts, u.IsSound) →
    ∃ items, List.Forall₂ Spells (renderTypes s ts) items ∧ ∀ us ∈ items, IsType us
  | [] => fun _ => ⟨[], .nil, by simp⟩
  | t :: rest => fun h => by
    rw [partsOfTypes, List.forall_mem_append] at h
    obtain ⟨ss, hspells, hreads⟩ := exists_reads t h.1
    obtain ⟨items, hmore, hitems⟩ := exists_readsTypes rest h.2
    exact ⟨ss :: items, .cons hspells hmore, List.forall_mem_cons.mpr ⟨hreads.isType, hitems⟩⟩

theorem exists_readsResult : (result : Option SigType) → (∀ u ∈ partsOfResult result, u.IsSound) →
    (∀ r ∈ result, ¬r.IsSum) → ∃ us, Spells (resultText (renderResult s result)) us ∧ IsResult us
  | none => fun _ _ => ⟨[], .of_isGap isGap_nil, .nil⟩
  | some t => fun h hsum => by
    obtain ⟨ss, hspells, hreads⟩ := exists_reads t h
    have harrow : Closes " -> " [.mark "->"] := closes_text (by decide) (by decide)
    exact ⟨_, harrow.append hspells fun _ _ => trivial, .arrow (hreads.isSingle (hsum t rfl))⟩

theorem exists_readsArgs : (args : List GenericArg) → (∀ u ∈ partsOfArgs args, u.IsSound) →
    (∀ a ∈ args, a.IsSound) → ∃ items, List.Forall₂ Spells (renderArgs s args) items ∧ ∀ us ∈ items, IsArgument us
  | [] => fun _ _ => ⟨[], .nil, by simp⟩
  | .type t :: rest => fun h hown => by
    rw [partsOfArgs, List.forall_mem_append] at h
    obtain ⟨ss, hspells, hreads⟩ := exists_reads t h.1
    obtain ⟨items, hmore, hitems⟩ := exists_readsArgs rest h.2 fun a ha => hown a (List.mem_cons_of_mem _ ha)
    exact ⟨ss :: items, .cons hspells hmore, List.forall_mem_cons.mpr ⟨isArgument_type hreads.isType, hitems⟩⟩
  | .lifetime l :: rest => fun h hown => by
    obtain ⟨hl, hrest⟩ := List.forall_mem_cons.mp hown
    obtain ⟨items, hmore, hitems⟩ := exists_readsArgs rest h hrest
    have hspells := spells_lifetime (isLifetime_lifetime s hl)
    exact ⟨_ :: items, .cons hspells hmore, List.forall_mem_cons.mpr ⟨isArgument_lifetime _, hitems⟩⟩
  | .binding name t :: rest => fun h hown => by
    rw [partsOfArgs, List.forall_mem_append] at h
    obtain ⟨hname, hrest⟩ := List.forall_mem_cons.mp hown
    obtain ⟨ss, hspells, hreads⟩ := exists_reads t h.1
    obtain ⟨items, hmore, hitems⟩ := exists_readsArgs rest h.2 hrest
    have hsign : Closes " = " [.mark "="] := closes_text (by decide) (by decide)
    have hall := ((spells_word hname.word).append hsign fun _ _ => rfl).append hspells fun _ _ => trivial
    exact ⟨_ :: items, .cons hall hmore,
      List.forall_mem_cons.mpr ⟨isArgument_binding hname.path hname.other hreads.isType, hitems⟩⟩
  | .const text :: rest => fun h hown => by
    obtain ⟨⟨ss, hspells, hconst⟩, hrest⟩ := List.forall_mem_cons.mp hown
    obtain ⟨items, hmore, hitems⟩ := exists_readsArgs rest h hrest
    exact ⟨ss :: items, .cons hspells hmore, List.forall_mem_cons.mpr ⟨isArgument_const hconst, hitems⟩⟩

theorem exists_readsBounds : (bounds : List Bound) → (∀ u ∈ partsOfBounds bounds, u.IsSound) →
    (∀ b ∈ bounds, b.IsSound) →
    ∃ items, List.Forall₂ Spells (renderBounds s bounds) items ∧ List.Forall₂ Bound.ReadsAs bounds items
  | [] => fun _ _ => ⟨[], .nil, .nil⟩
  | .lifetime l :: rest => fun h hown => by
    obtain ⟨hl, hrest⟩ := List.forall_mem_cons.mp hown
    obtain ⟨items, hmore, hitems⟩ := exists_readsBounds rest h hrest
    exact ⟨_, .cons (spells_lifetime (isLifetime_lifetime s hl)) hmore, .cons ⟨_, rfl⟩ hitems⟩
  | .trait binder isRelaxed t :: rest => fun h hown => by
    rw [partsOfBounds, List.forall_mem_append] at h
    obtain ⟨⟨hbinder, hsum⟩, hrest⟩ := List.forall_mem_cons.mp hown
    obtain ⟨ss, hspells, hreads⟩ := exists_reads t h.1
    obtain ⟨items, hmore, hitems⟩ := exists_readsBounds rest h.2 hrest
    have htype := (closes_questionMark isRelaxed).append hspells fun _ _ => trivial
    cases binder with
    | none =>
      refine ⟨_, .cons (by simpa [Bound.render] using htype) hmore, .cons ?_ hitems⟩
      cases isRelaxed with
      | false => exact ⟨hreads, hsum⟩
      | true => exact ⟨ss, rfl, hreads.isSingle hsum⟩
    | some b =>
      obtain ⟨generics, hgenerics, hread⟩ := hbinder b rfl
      have hblank : Closes " " [] := .of_isGap (isGap_blank (by decide))
      have hall := (hgenerics.append hblank fun _ _ => rfl).append htype fun _ _ => trivial
      refine ⟨_, .cons (by simpa [Bound.render, String.append_assoc] using hall) hmore, .cons ?_ hitems⟩
      cases isRelaxed with
      | false => exact ⟨generics, ss, by simp, hread, hreads⟩
      | true => exact trivial

end

end Rendering

end TraitMock.Signature
