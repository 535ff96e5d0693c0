import TraitMock.Proofs.Generation.Statements
import TraitMock.Proofs.Syntax.Items

namespace TraitMock.Generation

open Signature (LifetimeStyle SigType)
open Syntax (Balanced Closes IsGap IsPlain IsWord Shape Spells SpellsBefore balanced_separatedBy closes_inQuotes closes_text fit_nil
  isGap_blank isGap_nil separates spells_literal spells_word)
open Syntax.Reader
open Code (Prints prints_blank prints_comment prints_line)

section Methods

/-- All that is written of a method can stand where it is written. -/
structure Method.IsWritten (m : Method) : Prop where
  name : IsWord m.name
  modifiers : ∃ mods : List (List Shape), Spells (m.modifiers.getD "") mods.flatten ∧ ∀ ss ∈ mods, IsModifier ss
  lifetimes : ∀ text ∈ m.lifetimes, text.toList.head? = some '<' ∧ ∃ ss, Spells text ss ∧ IsGenericParams ss
  receiver : ∃ ss, Spells m.receiver ss ∧ Takes param ss (Starts [",", ")"])
  params : ∀ p ∈ m.params, Param.IsWritten p
  result : ∀ t ∈ m.result, t.IsWritten ∧ t.hasAbstract = false
  whereClause : ∃ ss, Spells (m.whereClause.getD "") ss ∧ IsClause ss

variable {m : Method}

/-- A blank behind a text separates it from what follows. -/
theorem closes_withBlank {text : Option String} {ss : List Shape} (h : Spells (text.getD "") ss) :
    Closes (withBlank text) ss := by
  cases text with
  | none =>
    obtain rfl : ss = [] := List.length_eq_zero_iff.mp (Nat.le_zero.mp h.length_le)
    exact .of_isGap isGap_nil
  | some s =>
    have hblank : Closes " " [] := .of_isGap (isGap_blank (by decide))
    simpa [withBlank] using h.append hblank fun _ _ => rfl

/-- A text with a blank in front, or nothing. -/
def blankBefore : Option String → String
  | none => ""
  | some s => " " ++ s

/-- A blank in front of a text separates it from what stands before. -/
theorem spells_blankBefore {text : Option String} {ss : List Shape} (h : Spells (text.getD "") ss) :
    Spells (blankBefore text) ss := by
  cases text with
  | none => exact h
  | some w =>
    have hblank : Closes " " [] := .of_isGap (isGap_blank (by decide))
    simpa [blankBefore] using hblank.append h fun _ _ => trivial

private theorem separates_blankBefore (text : Option String) {more : List Char} (h : separates more = true) :
    separates ((blankBefore text).toList ++ more) = true := by
  cases text with
  | none => exact h
  | some w =>
    rw [blankBefore, String.toList_append, List.append_assoc]
    rfl

/-- Lifetime parameters begin with the bracket that separates them from a name. -/
theorem exists_lifetimes (h : Method.IsWritten m) : ∃ ss, Spells (m.lifetimes.getD "") ss ∧ IsGenericParams ss ∧
    ∀ more, separates more = true → separates ((m.lifetimes.getD "").toList ++ more) = true := by
  cases hlifetimes : m.lifetimes with
  | none => exact ⟨[], .of_isGap isGap_nil, .nil, fun _ => id⟩
  | some text =>
    obtain ⟨hhead, ss, hspells, hread⟩ := h.lifetimes text hlifetimes
    obtain ⟨cs, hcs⟩ := List.head?_eq_some_iff.mp hhead
    refine ⟨ss, hspells, hread, fun more _ => ?_⟩
    rw [Option.getD_some, hcs]
    rfl

private theorem signature_eq (m : Method) : m.signature = withBlank m.modifiers ++ "fn " ++ m.name ++ m.lifetimes.getD "" ++
    "(" ++ m.receiver ++ String.join (m.params.map Method.declaration) ++ ")" ++
    Signature.resultText (m.result.map (SigType.render .kept)) ++ blankBefore m.whereClause := by
  unfold Method.signature
  cases m.whereClause <;> rfl

/-- The shapes of a parameter of the type `ts`. -/
def paramShapes (x : String) (ts : List Shape) : List Shape := .word x :: .mark ":" :: ts

theorem separates_declarations (ps : List Param) {more : List Char} (h : separates more = true) :
    separates ((String.join (ps.map Method.declaration)).toList ++ more) = true := by
  cases ps with
  | nil => exact h
  | cons p rest =>
    unfold Method.declaration
    simp only [List.map_cons, String.join_cons, String.toList_append, List.append_assoc]
    rfl

/-- The parameters behind the one that the method is called by. -/
theorem exists_declarations {ps : List Param} (h : ∀ p ∈ ps, Param.IsWritten p) :
    ∃ items : List (List Shape), Spells (String.join (ps.map Method.declaration)) (items.flatMap (.mark "," :: ·)) ∧
      ∀ us ∈ items, Takes param us (Starts [",", ")"]) := by
  induction ps with
  | nil => exact ⟨[], .of_isGap isGap_nil, by simp⟩
  | cons p rest ih =>
    obtain ⟨hp, hrest⟩ := List.forall_mem_cons.mp h
    obtain ⟨items, hspells, hitems⟩ := ih hrest
    obtain ⟨ts, hts, htype⟩ := IsTypeText.of_isWritten hp.type .kept
    have hcolon : Closes ": " [.mark ":"] := closes_text (by decide) (by decide)
    have hname := (closes_comma.append (spells_word hp.name.word) fun _ _ => trivial).append hcolon fun _ _ => rfl
    have hall := (hname.append hts fun _ _ => trivial).append hspells fun _ => separates_declarations rest
    refine ⟨paramShapes p.name ts :: items, ?_, List.forall_mem_cons.mpr ⟨takes_param hp.name.not_pattern htype, hitems⟩⟩
    have htext : Method.declaration p = ", " ++ p.name ++ ": " ++ p.type.render .kept := rfl
    rw [List.map_cons, String.join_cons, htext]
    simpa [paramShapes] using hall

private theorem exists_result {result : Option SigType} (h : ∀ t ∈ result, t.IsWritten) :
    ∃ ss, Spells (Signature.resultText (result.map (SigType.render .kept))) ss ∧ IsReturn ss := by
  cases result with
  | none => exact ⟨[], .of_isGap isGap_nil, .nil⟩
  | some t =>
    obtain ⟨ts, hts, htype⟩ := IsTypeText.of_isWritten (h t rfl) .kept
    have harrow : Closes " -> " [.mark "->"] := closes_text (by decide) (by decide)
    exact ⟨_, harrow.append hts fun _ _ => trivial, .arrow htype⟩

private theorem exists_signature (h : Method.IsWritten m) : ∃ f : FunctionShapes, Spells m.signature f.shapes ∧ f.IsRead := by
  obtain ⟨mods, hmods, hmodifiers⟩ := h.modifiers
  obtain ⟨generics, hgenerics, hlifetimes, hseparates⟩ := exists_lifetimes h
  obtain ⟨self, hself, hreceiver⟩ := h.receiver
  obtain ⟨params, hdeclared, hparams⟩ := exists_declarations h.params
  obtain ⟨result, hresult, hreturn⟩ := exists_result fun t ht => (h.result t ht).1
  obtain ⟨clause, hclause, hwhere⟩ := h.whereClause
  have hfn : Closes "fn " [.word "fn"] := closes_text (by decide) (by decide)
  have hname := ((closes_withBlank hmods).append hfn fun _ _ => trivial).append (spells_word h.name) fun _ _ => trivial
  have hfront := (hname.append hgenerics hseparates).append closes_opening fun _ _ => rfl
  have hlist := (hfront.append hself fun _ _ => trivial).append hdeclared fun _ => separates_declarations m.params
  have hreturned := (hlist.append closes_closing fun _ _ => rfl).append hresult fun _ _ => trivial
  have hall := hreturned.append (spells_blankBefore hclause) fun _ => separates_blankBefore m.whereClause
  refine ⟨⟨mods, m.name, generics, self :: params, result, clause⟩, ?_, hmodifiers, hlifetimes,
    List.forall_mem_cons.mpr ⟨hreceiver, hparams⟩, hreturn, hwhere⟩
  rw [signature_eq]
  simpa [FunctionShapes.shapes, separatedBy] using hall

theorem isOperand_marker {w : String} (hw : w ∉ typeWords) (hpath : w ∉ Syntax.pathWords) : IsOperand [.word w] := by
  have hargs : ∀ ss ∈ ([] : List (List Shape)), IsArgument ss := by simp
  simpa [pathShapes, argsShapes] using (isSingle_path (isTypePath_word hw hpath) hargs).isOperand

private theorem isTypeText_producerType (hparams : ∀ p ∈ m.params, Param.IsWritten p) {t : SigType} (ht : t.IsWritten)
    (habstract : t.isAbstract = false) : IsTypeText (m.producerType t) := by
  obtain ⟨ss, hspells, hreads⟩ := Signature.exists_reads .elided t ht
  obtain ⟨first, more, rfl, hfirst, hmore⟩ := hreads.summands habstract
  have htypes : ∀ x ∈ m.params.map fun p => p.type.render .elided, IsTypeText x := by
    intro x hx
    obtain ⟨p, hp, rfl⟩ := List.mem_map.mp hx
    exact IsTypeText.of_isWritten (hparams p hp).type .elided
  obtain ⟨items, hitems, hread⟩ := exists_items htypes
  have hopening : Closes "dyn Fn(" [.word "dyn", .word "Fn", .mark "("] := closes_text (by decide) (by decide)
  have hmid : Closes ") -> " [.mark ")", .mark "->"] := closes_text (by decide) (by decide)
  have hend : Spells " + Send + Sync" [.mark "+", .word "Send", .mark "+", .word "Sync"] := spells_literal (by decide)
  have hfront := (hopening.append (Signature.spells_commas hitems) fun _ _ => trivial).append hmid fun _ _ => rfl
  have hall := (hfront.append hspells fun _ _ => trivial).append hend fun _ _ => rfl
  have hbound := isBound_function (.path (isTypePath_word (w := "Fn") (by decide) (by decide))) hread (.arrow hfirst)
  have hoperands : ∀ us ∈ more ++ [[.word "Send"], [.word "Sync"]], IsOperand us := by
    intro us hus
    rcases List.mem_append.mp hus with hus | hus
    · exact hmore us hus
    · simp only [List.mem_cons, List.not_mem_nil, or_false] at hus
      rcases hus with rfl | rfl
      · exact isOperand_marker (by decide) (by decide)
      · exact isOperand_marker (by decide) (by decide)
  have htype := (isSingle_dyn hbound).isType_sum hoperands
  unfold Method.producerType
  exact ⟨_, hall, by simpa [plusShapes, callShapes, pathShapes] using htype⟩

/-- A value that a mock hands out: it is well-formed and has a name. -/
theorem isWritten_returns (h : ∀ t ∈ m.result, t.IsWritten ∧ t.hasAbstract = false) :
    ∀ t ∈ m.returns, t.IsWritten ∧ t.isAbstract = false := by
  have hself (t : SigType) (hnone : t.hasAbstract = false) : t.isAbstract = false :=
    (Signature.any_eq_false_iff _).mp hnone t (Signature.mem_parts t)
  unfold Method.returns
  split
  · simp
  · rename_i elements hresult
    obtain ⟨hwritten, hnone⟩ := h _ hresult
    intro t ht
    have hsub := Signature.parts_subset_tuple ht
    exact ⟨fun u hu => hwritten u (hsub hu),
      hself t ((Signature.any_eq_false_iff _).mpr fun u hu => (Signature.any_eq_false_iff _).mp hnone u (hsub hu))⟩
  · rename_i t _ hresult
    obtain ⟨hwritten, hnone⟩ := h t hresult
    exact List.forall_mem_singleton.mpr ⟨hwritten, hself t hnone⟩

private theorem isWritten_element (h : ∀ p ∈ m.params, Param.IsWritten p) : ∀ t ∈ m.variadicElement?, t.IsWritten := by
  unfold Method.variadicElement?
  split
  · intro t ht
    obtain ⟨p, hp, helement⟩ := Option.bind_eq_some_iff.mp ht
    have hwritten := (h p (List.mem_of_getLast? hp)).type
    unfold Method.elementOf at helement
    split at helement
    · rename_i l isMutable element htype
      obtain rfl := Option.some.inj helement
      rw [htype] at hwritten
      intro u hu
      refine isWritten_inner hwritten u ?_
      rw [SigType.parts]
      exact List.mem_cons_of_mem _ hu
    · cases helement
  · simp

private theorem isRead_producer (hparams : ∀ p ∈ m.params, Param.IsWritten p) {t : SigType} (ht : t.IsWritten)
    (habstract : t.isAbstract = false) : (Producer.ofMethod m t).IsRead where
  type := isTypeText_producerType hparams ht habstract
  args := by
    intro a ha
    obtain ⟨p, hp, rfl⟩ := List.mem_map.mp ha
    have hname := (hparams p hp).name
    unfold passedOn
    split
    · have hmarks : Closes "&mut *" [.mark "&", .word "mut", .mark "*"] := closes_text (by decide) (by decide)
      have hread := hname.chain.isTerm.deref.borrowMut.isExpression (p := .free) fun _ hm => hm
      exact ⟨_, hmarks.append (spells_word hname.word) fun _ _ => trivial, hread⟩
    · exact hname.isValueText
  copies := by
    intro c hc
    unfold Producer.ofMethod at hc
    dsimp only at hc
    split at hc
    · obtain ⟨p, hp, rfl⟩ := List.mem_map.mp hc
      have hwritten := hparams p (List.mem_of_mem_filter hp)
      exact ⟨hwritten.name, IsTypeText.of_isWritten hwritten.type .kept⟩
    · cases hc

private theorem isBodyCode_ofMethod (h : Method.IsWritten m) : IsBodyCode (MethodBody.ofMethod m).code := by
  have hreturns := isWritten_returns h.result
  refine isBodyCode_code h.name (isRead_ofParams (isWritten_element h.params) h.params) (fun p hp => ?_) fun htuple => ?_
  · rw [positions_ofMethod] at hp
    obtain ⟨k, hk, rfl⟩ := List.mem_mapIdx.mp hp
    obtain ⟨hwritten, habstract⟩ := hreturns _ (List.getElem_mem hk)
    refine ⟨IsTypeText.of_isWritten hwritten .kept, fun f hf => ?_⟩
    split at hf
    · obtain rfl := Option.some.inj hf
      exact isRead_producer h.params hwritten habstract
    · cases hf
  · rw [positions_ofMethod, List.length_mapIdx, Method.returns]
    split
    · simp
    · rename_i elements hresult
      have htrue : (MethodBody.ofMethod m).isTuple = true := by
        unfold MethodBody.ofMethod
        rw [hresult]
        rfl
      exact absurd (htrue.symm.trans htuple) (by decide)
    · simp

end Methods

section Items

/-- Shapes that are read as an item by a reader that goes at least `k` items deep. -/
def IsItem (k : Nat) (ss : List Shape) : Prop := ss ≠ [] ∧ ∀ n, Takes (item (n + k)) ss fun _ => True

/-- Code that is read as items, one behind the other. -/
def IsItemsCode (k : Nat) (code : List Code) : Prop :=
  ∃ items : List (List Shape), Prints code items.flatten ∧ ∀ ss ∈ items, IsItem k ss

variable {k : Nat} {code rest : List Code} {ss : List Shape}

theorem IsItem.mono {l : Nat} (h : IsItem k ss) (hle : k ≤ l) : IsItem l ss := by
  refine ⟨h.1, fun n => ?_⟩
  obtain ⟨j, rfl⟩ := Nat.exists_eq_add_of_le hle
  rw [show n + (k + j) = n + j + k by omega]
  exact h.2 (n + j)

theorem isItemsCode_nil : IsItemsCode k [] := ⟨[], Code.prints_nil, by simp⟩

theorem isItemsCode_blank : IsItemsCode k [.blank] := ⟨[], prints_blank, by simp⟩

theorem IsItemsCode.append (h : IsItemsCode k code) (hrest : IsItemsCode k rest) : IsItemsCode k (code ++ rest) := by
  obtain ⟨items, hprints, hitems⟩ := h
  obtain ⟨more, hmore, hall⟩ := hrest
  refine ⟨items ++ more, by simpa using hprints.append hmore, fun ss hss => ?_⟩
  exact (List.mem_append.mp hss).elim (hitems ss) (hall ss)

theorem IsItemsCode.flatMap {α : Type} {f : α → List Code} {xs : List α} (h : ∀ x ∈ xs, IsItemsCode k (f x)) :
    IsItemsCode k (xs.flatMap f) := by
  induction xs with
  | nil => exact isItemsCode_nil
  | cons x rest ih =>
    obtain ⟨hx, hrest⟩ := List.forall_mem_cons.mp h
    exact hx.append (ih hrest)

theorem IsItemsCode.mono {l : Nat} (h : IsItemsCode k code) (hle : k ≤ l) : IsItemsCode l code := by
  obtain ⟨items, hprints, hitems⟩ := h
  exact ⟨items, hprints, fun ss hss => (hitems ss hss).mono hle⟩

theorem IsItem.isItemsCode (h : IsItem k ss) (hcode : Prints code ss) : IsItemsCode k code :=
  ⟨[ss], by simpa using hcode, List.forall_mem_singleton.mpr h⟩

/-- A function with its body. -/
theorem isItemsCode_function {visible : List Shape} {f : FunctionShapes} {head : String} {body : List Code}
    (hvisible : IsPublic visible) (hhead : Spells head (visible ++ f.shapes)) (hf : f.IsRead) (hbody : IsBodyCode body) :
    IsItemsCode 3 (Code.braced head body) := by
  obtain ⟨us, hprints, hus⟩ := hbody
  have hitem : IsItem 3 (visible ++ (f.shapes ++ blockShapes us)) :=
    ⟨by simp [blockShapes], fun n => takes_item_function hvisible hf hus⟩
  exact hitem.isItemsCode (by simpa [blockShapes] using hprints.braced hhead)

/-- An attribute on a line of its own. -/
theorem isItemsCode_attribute {text : String} (front : Syntax.ImportPath) (name : String) (h : IsAttributeGroup ss)
    (htext : Spells text (attributeShapes front name ss)) : IsItemsCode 1 [.line text] := by
  have hitem : IsItem 1 (attributeShapes front name ss) :=
    ⟨by simp [attributeShapes], fun n => takes_item_attribute front name h⟩
  exact hitem.isItemsCode (prints_line htext)

theorem isItemsCode_method {m : Method} (h : Method.IsWritten m) : IsItemsCode 3 (methodCode m) := by
  obtain ⟨f, hspells, hf⟩ := exists_signature h
  have hhead : Spells m.signature ([] ++ f.shapes) := by simpa using hspells
  have hfunction := isItemsCode_function .none hhead hf (isBodyCode_ofMethod h)
  have hgroup : IsAttributeGroup (.mark "(" :: ([.word "unused_variables"] ++ [.mark ")"])) :=
    .group rfl (balanced_word "unused_variables")
  have hattribute : Closes "#[allow(unused_variables)]" (attributeShapes ⟨false, []⟩ "allow"
      (.mark "(" :: ([.word "unused_variables"] ++ [.mark ")"]))) := closes_text (by decide) (by decide)
  unfold methodCode
  split
  · exact ((isItemsCode_attribute _ "allow" hgroup hattribute.spells).mono (by decide)).append hfunction
  · exact hfunction

private theorem isWritten_renameFrom (taken : List String) {ps : List Param} (h : ∀ p ∈ ps, Param.IsWritten p) (i : Nat) :
    ∀ p ∈ renameFrom taken i ps, Param.IsWritten p := by
  induction ps generalizing i with
  | nil => simp [renameFrom]
  | cons p rest ih =>
    obtain ⟨hp, hrest⟩ := List.forall_mem_cons.mp h
    refine List.forall_mem_cons.mpr ⟨?_, ih hrest (i + 1)⟩
    split
    · obtain ⟨n, hfresh, _⟩ := exists_freshName taken i
      exact ⟨hfresh ▸ isName_freshCandidate i n, hp.type⟩
    · exact hp

theorem isWritten_withFreshNames {m : Method} (h : Method.IsWritten m) : Method.IsWritten (withFreshNames m) :=
  { h with params := isWritten_renameFrom _ h.params 0 }

theorem isItemsCode_methods {ms : List Method} (h : ∀ m ∈ ms, Method.IsWritten m) :
    IsItemsCode 3 (MockNames.methodsCode ms) := by
  fun_induction MockNames.methodsCode ms with
  | case1 => exact isItemsCode_nil
  | case2 m => exact isItemsCode_method (isWritten_withFreshNames (h m List.mem_cons_self))
  | case3 m rest _ ih =>
    obtain ⟨hm, hrest⟩ := List.forall_mem_cons.mp h
    exact (isItemsCode_method (isWritten_withFreshNames hm)).append (isItemsCode_blank.append (ih hrest))

end Items

section Helpers

variable {h : Helper}

/-- The names of a helper. -/
structure Helper.IsWritten (h : Helper) : Prop where
  method : IsWord h.method
  values : ∀ x ∈ h.values, IsName x
  elements : ∀ x ∈ h.elements, IsName x

private theorem isPlain_helperName {name : String} (hname : IsPlain name.toList) : IsPlain ("on_" ++ name).toList := by
  rw [String.toList_append]
  have hall : "on_".toList.all Text.isNameContinue = true := by decide
  have hfront := List.all_eq_true.mp hall
  exact ⟨⟨'o', rfl, by decide⟩, fun c hc => (List.mem_append.mp hc).elim (hfront c) (hname.2 c)⟩

/-- The parameters of a helper. -/
theorem exists_helperParams (hwritten : h.IsWritten) : ∃ items : List (List Shape),
    List.Forall₂ Spells h.params items ∧ ∀ us ∈ items, Takes param us (Starts [",", ")"]) := by
  have hvalue : IsType (.word "impl" :: pathShapes ["mock", "IntoValue"]) := by
    have hpath : IsTypePath ["mock", "IntoValue"] := isTypePath_cons (by decide) []
    have hargs : ∀ ss ∈ ([] : List (List Shape)), IsArgument ss := by simp
    have hbound := isBound_path hpath hargs (by simp)
    have hsingle := isSingle_impl hbound ⟨_, rfl, .inl ⟨rfl, by decide⟩⟩
    simpa [argsShapes] using (hsingle.mono fun _ => List.mem_cons_of_mem _).isType
  have helement : IsType (pathShapes ["Vec"] ++ argsShapes [pathShapes ["mock", "Value"]]) :=
    isType_generic (isTypePath_word (by decide) (by decide))
      (List.forall_mem_singleton.mpr (isArgument_type (isType_path (isTypePath_cons (by decide) []))))
  have hself : Spells "&self" [.mark "&", .word "self"] := spells_literal (by decide)
  have hvalues : Spells ": impl mock::IntoValue" (.mark ":" :: .word "impl" :: pathShapes ["mock", "IntoValue"]) :=
    spells_literal (by decide)
  have helements : Spells ": Vec<mock::Value>" (.mark ":" :: (pathShapes ["Vec"] ++ argsShapes [pathShapes ["mock", "Value"]])) :=
    spells_literal (by decide)
  refine exists_items fun x hx => ?_
  unfold Helper.params at hx
  rcases List.mem_append.mp hx with hx | hx
  · rcases List.mem_cons.mp hx with rfl | hx
    · exact ⟨_, hself, takes_param_self⟩
    · obtain ⟨y, hy, rfl⟩ := List.mem_map.mp hx
      have hname := hwritten.values y hy
      exact ⟨_, (spells_word hname.word).append hvalues fun _ _ => rfl, takes_param hname.not_pattern hvalue⟩
  · obtain ⟨y, hy, rfl⟩ := List.mem_map.mp hx
    have hname := hwritten.elements y (by simpa using hy)
    exact ⟨_, (spells_word hname.word).append helements fun _ _ => rfl, takes_param hname.not_pattern helement⟩

/-- A value for each of some parameters. -/
theorem exists_intoValues {xs : List String} (hnames : ∀ x ∈ xs, IsName x) : ∃ items,
    List.Forall₂ Spells (xs.map fun x => "mock::IntoValue::into_value(" ++ x ++ ")") items ∧
      ∀ us ∈ items, Balanced us := by
  refine exists_items fun text htext => ?_
  obtain ⟨x, hx, rfl⟩ := List.mem_map.mp htext
  have hopening : Closes "mock::IntoValue::into_value("
      [.word "mock", .mark "::", .word "IntoValue", .mark "::", .word "into_value", .mark "("] :=
    closes_text (by decide) (by decide)
  have hall := (hopening.append (spells_word (hnames x hx).word) fun _ _ => trivial).append closes_closing fun _ _ => rfl
  have hgroup : Balanced (.mark "(" :: ([.word x] ++ .mark ")" :: [])) := .group rfl (balanced_word x) .nil
  have hfront : Balanced [.word "mock", .mark "::", .word "IntoValue", .mark "::", .word "into_value"] :=
    Syntax.balanced_of_forall (by decide)
  exact ⟨_, hall.spells, by simpa using hfront.append hgroup⟩

/-- The values of the parameters, in order. -/
theorem isValueText_values {xs : List String} (hnames : ∀ x ∈ xs, IsName x) :
    IsValueText ("vec![" ++ commas (xs.map fun x => "mock::IntoValue::into_value(" ++ x ++ ")") ++ "]") := by
  obtain ⟨items, hspells, hitems⟩ := exists_intoValues hnames
  have hopening : Closes "vec![" [.word "vec", .mark "!", .mark "["] := closes_text (by decide) (by decide)
  have hclosing : Closes "]" [.mark "]"] := closes_text (by decide) (by decide)
  have hall := (hopening.append (Signature.spells_commas hspells) fun _ _ => trivial).append hclosing fun _ _ => rfl
  have hinner : Balanced (separatedBy (.mark ",") items) := balanced_separatedBy hitems (by decide)
  have hchain : IsChain "vec" _ := isChain_invocation (by decide) [] (o := "[") rfl hinner
  exact ⟨_, hall.spells, by simpa [pathShapes] using hchain.isExpression⟩

/-- The expectation of a call, as the value of a block. -/
theorem isBodyCode_expectation {args : String} (hmethod : IsWord h.method) (hargs : IsValueText ("mock::Arguments::" ++ args)) :
    IsBodyCode [h.expectation args] := by
  obtain ⟨us, hspells, hus⟩ := hargs
  have hopening : Closes "self.mock.on(" (pathShapes ["self"] ++ [.mark ".", .word "mock"] ++ [.mark ".", .word "on"] ++
      [.mark "("]) := closes_text (by decide) (by decide)
  obtain ⟨ss, hall, hchain⟩ := closes_question hopening ((isChain_self.field "mock").field "on") hmethod hspells hus
  have htext : "self.mock.on(" ++ inQuotes h.method ++ ", mock::Arguments::" ++ args ++ ")" =
      "self.mock.on(" ++ inQuotes h.method ++ ", " ++ ("mock::Arguments::" ++ args) ++ ")" := by
    have hliteral : (", mock::Arguments::" : String) = ", " ++ "mock::Arguments::" := by decide
    rw [hliteral]
    simp only [String.append_assoc]
  unfold Helper.expectation
  rw [htext]
  exact isBodyCode_value hall.spells (hchain.isPlainExpression (by decide))

/-- The arguments as they are taken from a list of values. -/
theorem isValueText_from {text : String} (h : IsValueText text) : IsValueText ("mock::Arguments::" ++ ("from(" ++ text ++ ")")) := by
  obtain ⟨us, hspells, hus⟩ := h
  have hopening : Closes ("mock::Arguments::" ++ "from(") (pathShapes ["mock", "Arguments", "from"] ++ [.mark "("]) :=
    closes_text (by decide) (by decide)
  obtain ⟨hall, hchain⟩ := closes_call hopening (isChain_path (by decide) ["Arguments", "from"]) hspells hus
  exact ⟨_, by simpa only [String.append_assoc] using hall.spells, hchain.isExpression⟩

/-- The list of values that the elements of a parameter are added to. -/
theorem isStatementCode_values {xs : List String} (hnames : ∀ x ∈ xs, IsName x) : IsStatementCode
    [.line ("let mut _args = vec![" ++ commas (xs.map fun x => "mock::IntoValue::into_value(" ++ x ++ ")") ++ "];")] := by
  obtain ⟨us, hspells, hus⟩ := isValueText_values hnames
  have hlet : Closes "let mut _args = " [.word "let", .word "mut", .word "_args", .mark "="] :=
    closes_text (by decide) (by decide)
  have hall := (hlet.append hspells fun _ _ => trivial).append closes_semicolon fun _ _ => rfl
  have hread := isStatement_let (isPattern_name (x := "_args") (by decide)).mut .nil hus
  have htext (text : String) : "let mut _args = vec![" ++ text ++ "];" = "let mut _args = " ++ ("vec![" ++ text ++ "]") ++ ";" := by
    have hopening : ("let mut _args = vec![" : String) = "let mut _args = " ++ "vec![" := by decide
    have hclosing : ("];" : String) = "]" ++ ";" := by decide
    rw [hopening, hclosing]
    simp only [String.append_assoc]
  rw [htext]
  exact ⟨_, prints_line hall.spells, by simpa using hread⟩

private theorem isStatementCode_extend {x : String} (hx : IsName x) : IsStatementCode [.line ("_args.extend(" ++ x ++ ");")] := by
  have hopening : Closes "_args.extend(" (pathShapes ["_args"] ++ [.mark ".", .word "extend"] ++ [.mark "("]) :=
    closes_text (by decide) (by decide)
  have hargs : IsChain "_args" (pathShapes ["_args"]) := isChain_path (by decide) []
  obtain ⟨hall, hchain⟩ := closes_call hopening (hargs.field "extend") (spells_word hx.word) hx.chain.isExpression
  rw [append_closing]
  exact isStatementCode_line hall.spells (hchain.isPlainExpression (by decide))

theorem isBodyCode_helper (hwritten : h.IsWritten) : IsBodyCode h.body := by
  have hargs : IsName "_args" := isName_literal (w := "args".toList) rfl (by decide)
  unfold Helper.body
  dsimp only
  split
  · rename_i rest hrest
    have hexpectation := isBodyCode_expectation hwritten.method (isValueText_from hargs.isValueText)
    exact (isStatementCode_values hwritten.values).append
      ((isStatementCode_extend (hwritten.elements rest hrest)).append hexpectation)
  · split
    · exact isBodyCode_expectation hwritten.method (isValueText_arguments true)
    · have htext (text : String) : "from(vec![" ++ text ++ "])" = "from(" ++ ("vec![" ++ text ++ "]") ++ ")" := by
        have hopening : ("from(vec![" : String) = "from(" ++ "vec![" := by decide
        have hclosing : ("])" : String) = "]" ++ ")" := by decide
        rw [hopening, hclosing]
        simp only [String.append_assoc]
      rw [htext]
      exact isBodyCode_expectation hwritten.method (isValueText_from (isValueText_values hwritten.values))

/-- What stands behind the name of a helper. -/
def Helper.tail (h : Helper) : String := "(" ++ commas h.params ++ ") -> mock::Call"

def callResult : List Shape := .mark "->" :: pathShapes ["mock", "Call"]

theorem code_helper (h : Helper) : h.code =
    [.blank, .line "#[track_caller]"] ++ Code.braced ("pub fn " ++ ("on_" ++ h.method) ++ h.tail) h.body := by
  have hliteral : ("pub fn on_" : String) = "pub fn " ++ "on_" := by decide
  unfold Helper.code Helper.tail
  rw [hliteral]
  simp only [String.append_assoc]

theorem exists_tail (hwritten : h.IsWritten) : ∃ items : List (List Shape),
    Spells h.tail (.mark "(" :: (separatedBy (.mark ",") items ++ .mark ")" :: callResult)) ∧
      ∀ us ∈ items, Takes param us (Starts [",", ")"]) := by
  obtain ⟨items, hspells, hitems⟩ := exists_helperParams hwritten
  have hend : Spells ") -> mock::Call" (.mark ")" :: callResult) := spells_literal (by decide)
  have hall := (closes_opening.append (Signature.spells_commas hspells) fun _ _ => trivial).append hend fun _ _ => rfl
  exact ⟨items, by simpa [Helper.tail, commas] using hall, hitems⟩

theorem separates_tail (h : Helper) (more : List Char) : separates (h.tail.toList ++ more) = true := by
  simp only [Helper.tail, String.toList_append, List.append_assoc]
  rfl

theorem closes_publicFunction : Closes "pub fn " [.word "pub", .word "fn"] := closes_text (by decide) (by decide)

theorem closes_trackCaller : Closes "#[track_caller]" (attributeShapes ⟨false, []⟩ "track_caller" []) :=
  closes_text (by decide) (by decide)

theorem isItemsCode_helper (hwritten : h.IsWritten) (hplain : IsPlain h.method.toList) : IsItemsCode 3 h.code := by
  obtain ⟨items, htail, hitems⟩ := exists_tail hwritten
  have hname : IsWord ("on_" ++ h.method) := .inl (isPlain_helperName hplain)
  have hhead := (closes_publicFunction.append (spells_word hname) fun _ _ => trivial).append htail fun more _ => separates_tail h more
  have hcall : IsType (pathShapes ["mock", "Call"]) := isType_path (isTypePath_cons (by decide) [])
  have hread : FunctionShapes.IsRead ⟨[], "on_" ++ h.method, [], items, callResult, []⟩ :=
    ⟨by simp, .nil, hitems, .arrow hcall, .nil⟩
  have hfunction := isItemsCode_function .word (by simpa [FunctionShapes.shapes] using hhead) hread
    (isBodyCode_helper hwritten)
  have hfront := (isItemsCode_attribute ⟨false, []⟩ "track_caller" .none closes_trackCaller.spells).mono (show 1 ≤ 3 by decide)
  rw [code_helper]
  exact (isItemsCode_blank.append hfront).append hfunction

/-- The name of a helper with the mark of a keyword in it, and what stands in front of it. -/
def rawHead : List Shape := [.word "pub", .word "fn", .word "on_r", .mark "#"]

/-- Behind a mark that lets it be a keyword, the name of a method gives a helper a name that ends in front of the mark. -/
theorem exists_rawHelper (hwritten : h.IsWritten) (hplain : ¬IsPlain h.method.toList) : ∃ us, Prints h.code
    (attributeShapes ⟨false, []⟩ "track_caller" [] ++ (rawHead ++ us)) := by
  obtain ⟨items, htail, -⟩ := exists_tail hwritten
  obtain ⟨us, hbody, -⟩ := isBodyCode_helper hwritten
  obtain ⟨w, hmethod, hw⟩ := hwritten.method.resolve_left hplain
  have hstart : SpellsBefore (·.head? = some '#') "on_r" [.word "on_r"] := by
    refine .of_readToken (c := 'o') (by decide) (by decide) fun more hmore => ?_
    obtain ⟨rest, rfl⟩ := List.head?_eq_some_iff.mp hmore
    rfl
  have hmark : Closes "#" [.mark "#"] := closes_text (by decide) (by decide)
  have hfront := (closes_publicFunction.append hstart fun _ _ => trivial).append hmark fun _ _ => rfl
  have hname : IsWord (String.ofList w) := .inl (by simpa using hw)
  have hhead := (hfront.append (spells_word hname) fun _ _ => trivial).append htail fun more _ => separates_tail h more
  have htext : "pub fn " ++ ("on_" ++ h.method) ++ h.tail = "pub fn " ++ "on_r" ++ "#" ++ String.ofList w ++ h.tail := by
    have hraw : h.method = "r" ++ "#" ++ String.ofList w := String.toList_inj.mp (by simp [hmethod])
    have hliteral : ("on_r" : String) = "on_" ++ "r" := by decide
    rw [hraw, hliteral]
    simp only [String.append_assoc]
  have hall := (prints_blank.append (prints_line closes_trackCaller.spells)).append (hbody.braced hhead)
  rw [code_helper, htext]
  exact ⟨_, by simpa [rawHead] using hall⟩

@[simp] theorem method_ofMethod (m : Method) : (Helper.ofMethod m).method = m.name := by
  unfold Helper.ofMethod
  dsimp only
  split <;> rfl

theorem isWritten_ofMethod {m : Method} (h : Method.IsWritten m) : (Helper.ofMethod m).IsWritten := by
  have hnames : ∀ x ∈ (Helper.ofMethod m).values ++ (Helper.ofMethod m).elements.toList, IsName x := by
    rw [names_ofMethod]
    intro x hx
    obtain ⟨p, hp, rfl⟩ := List.mem_map.mp hx
    exact (h.params p hp).name
  refine ⟨method_ofMethod m ▸ h.name, fun x hx => hnames x (List.mem_append_left _ hx), fun x hx => hnames x ?_⟩
  exact List.mem_append_right _ (by simpa using hx)

theorem isItemsCode_ofMethod {m : Method} (h : Method.IsWritten m) (hplain : IsPlain m.name.toList) :
    IsItemsCode 3 (Helper.ofMethod (withFreshNames m)).code :=
  isItemsCode_helper (isWritten_ofMethod (isWritten_withFreshNames h)) (by rw [method_ofMethod]; exact hplain)

end Helpers

end TraitMock.Generation
