import TraitMock.Proofs.Generation.Lines
import TraitMock.Proofs.Generation.Recordings
import TraitMock.Proofs.Signature.Spelling
import TraitMock.Proofs.Syntax.Chains

namespace TraitMock.Generation

open Signature (LifetimeStyle SigType)
open Syntax (Balanced Closes IsGap IsPlain IsWord Shape Spells SpellsBefore SpellsTight balanced_of_forall closes_inQuotes
  closes_quoted closes_text glued isGap_blank isGap_nil readToken_mark separates spellsTight_of_readToken spells_number
  spells_word)
open Syntax.Reader
open Code (Prints prints_line prints_lines)

section Pieces

theorem closes_opening : Closes "(" [.mark "("] := closes_text (by decide) (by decide)

theorem closes_closing : Closes ")" [.mark ")"] := closes_text (by decide) (by decide)

theorem closes_comma : Closes ", " [.mark ","] := closes_text (by decide) (by decide)

theorem closes_semicolon : Closes ";" [.mark ";"] := closes_text (by decide) (by decide)

theorem isChain_self : IsChain "self" (pathShapes ["self"]) := isChain_path (by decide) []

theorem isApplied_noArguments : IsApplied (listShapes [] []) := isApplied_call (by simp) (.inl rfl)

end Pieces

section Names

/-- A name that is no keyword. -/
structure IsName (x : String) : Prop where
  word : IsWord x
  other : x ∉ "self" :: reservedWords

instance : DecidablePred IsName := fun x =>
  decidable_of_iff (IsWord x ∧ x ∉ "self" :: reservedWords) ⟨fun h => ⟨h.1, h.2⟩, fun h => ⟨h.word, h.other⟩⟩

variable {x : String}

private theorem IsName.not_reserved (h : IsName x) : x ∉ reservedWords := fun hx => h.other (List.mem_cons_of_mem _ hx)

theorem IsName.not_pattern (h : IsName x) : x ∉ patternWords := fun hx => by
  have hsub : ∀ w ∈ patternWords, w ∈ "self" :: reservedWords := by decide
  exact h.other (hsub x hx)

theorem not_mem_of_underscore {ws : List String} (hx : x.toList.head? = some '_')
    (hws : ∀ w ∈ ws, w.toList.head? ≠ some '_') : x ∉ ws := fun hmem => hws x hmem hx

/-- No keyword begins with an underscore. -/
theorem isName_of_underscore {w : List Char} (hx : x.toList = '_' :: w) (hw : ∀ c ∈ w, Text.isNameContinue c = true) :
    IsName x := by
  have hplain : IsPlain x.toList := by
    rw [hx]
    exact ⟨⟨'_', rfl, by decide⟩, List.forall_mem_cons.mpr ⟨by decide, hw⟩⟩
  exact ⟨.inl hplain, not_mem_of_underscore (by rw [hx]; rfl) (by decide)⟩

/-- For names in a program, of which the characters can be looked at one by one. -/
theorem isName_literal {w : List Char} (hx : x.toList = '_' :: w) (hw : w.all Text.isNameContinue = true) : IsName x :=
  isName_of_underscore hx (List.all_eq_true.mp hw)

theorem isNameContinue_of_isDigit {c : Char} (h : c.isDigit = true) : Text.isNameContinue c = true :=
  Syntax.isNameContinue_of_isAlphanum (by simp [Char.isAlphanum, h])

theorem isName_resultLocal (i : Nat) : IsName (resultLocal i) := by
  refine isName_of_underscore (w := 'r' :: Nat.toDigits 10 i) (by simp [resultLocal]) fun c hc => ?_
  rcases List.mem_cons.mp hc with rfl | hc
  · decide
  · exact isNameContinue_of_isDigit (isDigit_toDigits i c hc)

theorem isName_freshCandidate (i n : Nat) : IsName (freshCandidate i n) := by
  refine isName_of_underscore (toList_freshCandidate i n) fun c hc => ?_
  rcases List.mem_cons.mp hc with rfl | hc
  · decide
  · rcases List.mem_append.mp hc with hc | hc
    · exact isNameContinue_of_isDigit (isDigit_toDigits i c hc)
    · exact (List.eq_of_mem_replicate hc) ▸ by decide

theorem IsName.pattern (h : IsName x) : IsPattern [.word x] := isPattern_name h.not_pattern

theorem IsName.chain (h : IsName x) : IsChain x [.word x] := isChain_path h.not_reserved []

end Names

section Values

/-- A text that is read as an expression. -/
def IsValueText (text : String) : Prop := ∃ ss, Spells text ss ∧ IsExpression .free ss

/-- A text that is read as a type. -/
def IsTypeText (text : String) : Prop := ∃ ss, Spells text ss ∧ IsType ss

/-- What there is for each of some texts makes up a list. -/
theorem exists_items {R : String → List Shape → Prop} {P : List Shape → Prop} {texts : List String}
    (h : ∀ x ∈ texts, ∃ ss, R x ss ∧ P ss) : ∃ items, List.Forall₂ R texts items ∧ ∀ ss ∈ items, P ss := by
  induction texts with
  | nil => exact ⟨[], .nil, by simp⟩
  | cons x rest ih =>
    obtain ⟨hx, hrest⟩ := List.forall_mem_cons.mp h
    obtain ⟨ss, hfirst, hss⟩ := hx
    obtain ⟨items, hitems, hall⟩ := ih hrest
    exact ⟨ss :: items, .cons hfirst hitems, List.forall_mem_cons.mpr ⟨hss, hall⟩⟩

theorem IsName.isValueText {x : String} (h : IsName x) : IsValueText x :=
  ⟨_, spells_word h.word, h.chain.isExpression⟩

theorem IsTypeText.of_isWritten {t : SigType} (h : t.IsWritten) (s : LifetimeStyle) : IsTypeText (t.render s) := by
  obtain ⟨ss, hspells, hreads⟩ := Signature.exists_reads s t h
  exact ⟨ss, hspells, hreads.isType⟩

theorem balanced_word (x : String) : Balanced [.word x] := .cons (isFlat_word x).isInner .nil

section Calls

variable {opening first : String} {heads : List Shape} (hopening : Closes opening (heads ++ [.mark "("]))
  (hheads : IsChain first heads)

include hopening hheads

/-- A call of what is written up to the parenthesis. -/
theorem closes_calls {args : List String} {items : List (List Shape)} (hargs : List.Forall₂ Spells args items)
    (hitems : ∀ us ∈ items, IsExpression .free us) :
    Closes (opening ++ commas args ++ ")") (heads ++ listShapes items []) ∧
      IsChain first (heads ++ listShapes items []) := by
  have hall := (hopening.append (Signature.spells_commas hargs) fun _ _ => trivial).append closes_closing fun _ _ => rfl
  exact ⟨by simpa [listShapes, commas] using hall, hheads.call hitems⟩

theorem closes_call {arg : String} {us : List Shape} (harg : Spells arg us) (hus : IsExpression .free us) :
    Closes (opening ++ arg ++ ")") (heads ++ listShapes [us] []) ∧ IsChain first (heads ++ listShapes [us] []) :=
  closes_calls hopening hheads (.cons harg .nil) (List.forall_mem_singleton.mpr hus)

end Calls

/-- A call of a macro of the runtime. -/
theorem exists_invocation {name opening inner : String} {front us : List Shape}
    (hopening : Closes opening ([.word "mock", .mark "::", .word name, .mark "!", .mark "("] ++ front))
    (hinner : Spells inner us) (hbalanced : Balanced (front ++ us)) :
    ∃ ss, Closes (opening ++ inner ++ ")") ss ∧ IsChain "mock" ss := by
  have hall := (hopening.append hinner fun _ _ => trivial).append closes_closing fun _ _ => rfl
  have hchain : IsChain "mock" (pathShapes ["mock", name] ++ .mark "!" :: .mark "(" :: (front ++ us ++ [.mark ")"])) :=
    isChain_invocation (by decide) [name] rfl hbalanced
  exact ⟨_, hall, by simpa [pathShapes] using hchain⟩

/-- A call of a macro with a place and a type. -/
theorem exists_capture {name opening place type : String} {us : List Shape}
    (hopening : Closes opening ([.word "mock", .mark "::", .word name, .mark "!", .mark "("] ++ []))
    (hplace : Spells place us) (hus : Balanced us) (htype : IsTypeText type) :
    ∃ ss, Closes (opening ++ place ++ ", " ++ type ++ ")") ss ∧ IsChain "mock" ss := by
  obtain ⟨ts, hts, hread⟩ := htype
  have hinner := (hplace.append closes_comma fun _ _ => rfl).append hts fun _ _ => trivial
  have hmark : Balanced [.mark ","] := balanced_of_forall (by decide)
  have hbalanced := (hus.append hmark).append hread.flat.balanced
  simpa [String.append_assoc] using exists_invocation hopening hinner hbalanced

/-- Some marks in front of a name. -/
theorem exists_place {x marks : String} {us : List Shape} (hx : IsWord x) (hmarks : Closes marks us)
    (hus : ∀ s ∈ us, s.IsInner) : Spells (marks ++ x) (us ++ [.word x]) ∧ Balanced (us ++ [.word x]) := by
  refine ⟨hmarks.append (spells_word hx) fun _ _ => trivial, balanced_of_forall fun s hs => ?_⟩
  rcases List.mem_append.mp hs with hs | hs
  · exact hus s hs
  · obtain rfl := List.mem_singleton.mp hs
    exact fun h => by cases h.1

end Values

section Recordings

/-- A parameter with a name and a type that can be written. -/
structure Param.IsWritten (p : Param) : Prop where
  name : IsName p.name
  type : p.type.IsWritten

theorem isWritten_inner {l : Option String} {isMutable : Bool} {inner : SigType}
    (h : (SigType.reference l isMutable inner).IsWritten) : inner.IsWritten := fun u hu =>
  h u (by rw [SigType.parts]; exact List.mem_cons_of_mem _ hu)

variable {name : String} {t : SigType}

/-- A value is recorded by what it borrows, by a mark that names its type, or by a clone. -/
theorem recordedValue_cases (name : String) (t : SigType) (isElement : Bool) :
    (∃ l isMutable inner, t = .reference l isMutable inner ∧ recordedValue name t isElement =
      "mock::capture_ref!(" ++ (if isElement then "&**" ++ name else if isMutable then "&*" ++ name else name) ++
        ", " ++ inner.render .kept ++ ")") ∨
    recordedValue name t isElement = "mock::Value::opaque(" ++ Text.quoted (t.render .elided) ++ ")" ∨
    recordedValue name t isElement =
      "mock::capture!(" ++ (if isElement then name else "&" ++ name) ++ ", " ++ t.render .kept ++ ")" := by
  cases hcapture : t.capture with
  | clone => exact .inr (.inr (by simp only [recordedValue, hcapture]))
  | opaqueMark => exact .inr (.inl (by simp only [recordedValue, hcapture]))
  | owned =>
    cases t with
    | reference l isMutable inner => exact .inl ⟨l, isMutable, inner, rfl, by simp only [recordedValue, hcapture]⟩
    | _ => exact .inr (.inr (by simp only [recordedValue, hcapture]))

private theorem isValueText_captureRef (hname : IsName name) (ht : t.IsWritten) (isElement isMutable : Bool) :
    IsValueText ("mock::capture_ref!(" ++ (if isElement then "&**" ++ name else if isMutable then "&*" ++ name else name) ++
      ", " ++ t.render .kept ++ ")") := by
  have hopening : Closes "mock::capture_ref!(" [.word "mock", .mark "::", .word "capture_ref", .mark "!", .mark "("] :=
    closes_text (by decide) (by decide)
  have hplace : ∃ us, Spells (if isElement then "&**" ++ name else if isMutable then "&*" ++ name else name) us ∧
      Balanced us := by
    cases isElement with
    | true =>
      have hmarks : Closes "&**" [.mark "&", .mark "*", .mark "*"] := closes_text (by decide) (by decide)
      exact ⟨_, exists_place hname.word hmarks (by decide)⟩
    | false =>
      cases isMutable with
      | true =>
        have hmarks : Closes "&*" [.mark "&", .mark "*"] := closes_text (by decide) (by decide)
        exact ⟨_, exists_place hname.word hmarks (by decide)⟩
      | false => exact ⟨_, spells_word hname.word, balanced_word name⟩
  obtain ⟨us, hspells, hus⟩ := hplace
  obtain ⟨ss, hss, hchain⟩ := exists_capture hopening hspells hus (IsTypeText.of_isWritten ht .kept)
  exact ⟨ss, hss.weaken fun _ _ => trivial, hchain.isExpression⟩

private theorem isValueText_capture (hname : IsName name) (ht : t.IsWritten) (isElement : Bool) :
    IsValueText ("mock::capture!(" ++ (if isElement then name else "&" ++ name) ++ ", " ++ t.render .kept ++ ")") := by
  have hopening : Closes "mock::capture!(" [.word "mock", .mark "::", .word "capture", .mark "!", .mark "("] :=
    closes_text (by decide) (by decide)
  have hplace : ∃ us, Spells (if isElement then name else "&" ++ name) us ∧ Balanced us := by
    cases isElement with
    | true => exact ⟨_, spells_word hname.word, balanced_word name⟩
    | false =>
      have hmarks : Closes "&" [.mark "&"] := closes_text (by decide) (by decide)
      exact ⟨_, exists_place hname.word hmarks (by decide)⟩
  obtain ⟨us, hspells, hus⟩ := hplace
  obtain ⟨ss, hss, hchain⟩ := exists_capture hopening hspells hus (IsTypeText.of_isWritten ht .kept)
  exact ⟨ss, hss.weaken fun _ _ => trivial, hchain.isExpression⟩

private theorem isValueText_opaque (typeName : String) :
    IsValueText ("mock::Value::opaque(" ++ Text.quoted typeName ++ ")") := by
  have hopening : Closes "mock::Value::opaque(" (pathShapes ["mock", "Value", "opaque"] ++ [.mark "("]) :=
    closes_text (by decide) (by decide)
  obtain ⟨hall, hchain⟩ := closes_call hopening (isChain_path (by decide) ["Value", "opaque"])
    (closes_quoted typeName).spells (isExpression_string (Text.quoted typeName))
  exact ⟨_, hall.spells, hchain.isExpression⟩

theorem isValueText_recordedValue (hname : IsName name) (ht : t.IsWritten) (isElement : Bool) :
    IsValueText (recordedValue name t isElement) := by
  rcases recordedValue_cases name t isElement with ⟨l, isMutable, inner, rfl, hvalue⟩ | hvalue | hvalue
  · rw [hvalue]
    exact isValueText_captureRef hname (isWritten_inner ht) isElement isMutable
  · rw [hvalue]
    exact isValueText_opaque (t.render .elided)
  · rw [hvalue]
    exact isValueText_capture hname ht isElement

/-- What is recorded is read as a value. -/
def Recording.IsRead : Recording → Prop
  | .single value => IsValueText value
  | .each param value => IsName param ∧ IsValueText value

theorem isRead_ofParams {element? : Option SigType} (helement : ∀ t ∈ element?, t.IsWritten) {ps : List Param}
    (hps : ∀ p ∈ ps, Param.IsWritten p) : ∀ r ∈ Recording.ofParams element? ps, r.IsRead := by
  fun_induction Recording.ofParams element? ps with
  | case1 => simp
  | case2 p t ht =>
    obtain ⟨hp, _⟩ := List.forall_mem_cons.mp hps
    exact List.forall_mem_singleton.mpr ⟨hp.name,
      isValueText_recordedValue (isName_literal (w := ['v']) rfl (by decide)) (helement t ht) true⟩
  | case3 p =>
    obtain ⟨hp, _⟩ := List.forall_mem_cons.mp hps
    exact List.forall_mem_singleton.mpr (isValueText_recordedValue hp.name hp.type false)
  | case4 p rest _ ih =>
    obtain ⟨hp, hrest⟩ := List.forall_mem_cons.mp hps
    exact List.forall_mem_cons.mpr ⟨isValueText_recordedValue hp.name hp.type false, ih hrest⟩

end Recordings

section Statements

/-- Code that is read as a statement. -/
def IsStatementCode (code : List Code) : Prop := ∃ ss, Prints code ss ∧ IsStatement ss

/-- Code that is read as all that stands in a block. -/
def IsBodyCode (code : List Code) : Prop := ∃ ss, Prints code ss ∧ IsBody ss

variable {code rest : List Code} {text : String} {ss : List Shape}

private theorem isBodyCode_nil : IsBodyCode [] := ⟨[], Code.prints_nil, .nil⟩

theorem IsStatementCode.append (h : IsStatementCode code) (hrest : IsBodyCode rest) : IsBodyCode (code ++ rest) := by
  obtain ⟨ss, hprints, hss⟩ := h
  obtain ⟨us, hmore, hus⟩ := hrest
  exact ⟨ss ++ us, hprints.append hmore, .cons hss hus⟩

theorem IsBodyCode.flatMap {α : Type} {f : α → List Code} {xs : List α} (h : ∀ x ∈ xs, IsStatementCode (f x))
    (hrest : IsBodyCode rest) : IsBodyCode (xs.flatMap f ++ rest) := by
  induction xs with
  | nil => exact hrest
  | cons x xs ih =>
    obtain ⟨hx, hxs⟩ := List.forall_mem_cons.mp h
    rw [List.flatMap_cons, List.append_assoc]
    exact hx.append (ih hxs)

theorem isBodyCode_value (h : Spells text ss) (hss : IsPlainExpression ss) : IsBodyCode [.line text] :=
  ⟨ss, prints_line h, .last hss⟩

/-- An expression with a semicolon behind it. -/
theorem isStatementCode_line (h : Spells text ss) (hss : IsPlainExpression ss) : IsStatementCode [.line (text ++ ";")] := by
  exact ⟨_, prints_line (h.append closes_semicolon fun _ _ => rfl).spells, isStatement_expression hss⟩

theorem append_closing (text : String) : text ++ ");" = text ++ ")" ++ ";" := by simp [String.append_assoc]

end Statements

section Recording

variable {value : String} {r : Recording} {rs : List Recording}

theorem isStatementCode_push (h : IsValueText value) : IsStatementCode [Recording.push value] := by
  obtain ⟨us, hspells, hus⟩ := h
  have hopening : Closes "_args.push(" (pathShapes ["_args"] ++ [.mark ".", .word "push"] ++ [.mark "("]) :=
    closes_text (by decide) (by decide)
  obtain ⟨hall, hchain⟩ := closes_call hopening ((isChain_path (by decide) []).field "push") hspells hus
  rw [Recording.push, append_closing]
  exact isStatementCode_line hall.spells (hchain.isPlainExpression (by decide))

/-- A call without arguments of a method of a name. -/
theorem closes_method {x name : String} (hx : IsName x) {suffix : String}
    (hsuffix : Closes suffix [.mark ".", .word name, .mark "(", .mark ")"])
    (hdot : ∀ more, separates (suffix.toList ++ more) = true) :
    Closes (x ++ suffix) ([.word x] ++ [.mark ".", .word name] ++ listShapes [] []) := by
  simpa [listShapes, separatedBy] using (spells_word hx.word).append hsuffix fun more _ => hdot more

private theorem isStatementCode_each {param : String} (hparam : IsName param) (h : IsValueText value) :
    IsStatementCode (Recording.each param value).code := by
  obtain ⟨us, hprints, hus⟩ := isStatementCode_push h
  have hfor : Closes "for _v in " [.word "for", .word "_v", .word "in"] := closes_text (by decide) (by decide)
  have hiter : Closes ".iter()" [.mark ".", .word "iter", .mark "(", .mark ")"] := closes_text (by decide) (by decide)
  have hhead := hfor.append (closes_method hparam hiter fun _ => rfl) fun _ _ => trivial
  have hcode := hprints.braced hhead.spells
  have hread := isBlockLike_for (isPattern_name (x := "_v") (by decide))
    ((hparam.chain.field "iter").isExpression_beforeBlock isApplied_noArguments) (.cons hus .nil)
  rw [Recording.code, String.append_assoc]
  exact ⟨_, hcode, by simpa [blockShapes] using hread.isStatement⟩

private theorem isStatementCode_recording (h : r.IsRead) : IsStatementCode r.code := by
  cases r with
  | single value => exact isStatementCode_push h
  | each param value => exact isStatementCode_each h.1 h.2

private theorem isValueText_capacity (h : ∀ r ∈ rs, r.IsRead) : IsValueText (Recording.capacity rs) := by
  unfold Recording.capacity
  split
  · rename_i param value hlast
    have hparam := (h _ (List.mem_of_getLast? hlast)).1
    have hplus : Closes " + " [.mark "+"] := closes_text (by decide) (by decide)
    have hlen : Closes ".len()" [.mark ".", .word "len", .mark "(", .mark ")"] := closes_text (by decide) (by decide)
    have hall := ((spells_number (rs.length - 1)).append hplus fun _ _ => rfl).append
      (closes_method hparam hlen fun _ => rfl) fun _ _ => trivial
    have hchain : IsChain param ([.word param] ++ [.mark ".", .word "len"] ++ listShapes [] []) :=
      (hparam.chain.field "len").call (by simp)
    have hnumber : IsTerm operatorMarks [⟨.number, toString (rs.length - 1), false⟩] :=
      (isPrimary_number _).isTerm_alone (by decide) (by decide)
    have hread := isExpression_binary (p := .free) hnumber .plus hchain.isTerm hchain.startsOperand fun _ hm => hm
    rw [String.append_assoc]
    exact ⟨_, hall.spells, by simpa using hread⟩
  · exact ⟨_, spells_number rs.length, isExpression_number _⟩

private theorem isBodyCode_codeOf {rest : List Code} (h : ∀ r ∈ rs, r.IsRead) (hrest : IsBodyCode rest) :
    IsBodyCode (Recording.codeOf rs ++ rest) := by
  rw [Recording.codeOf]
  split
  · exact hrest
  · obtain ⟨us, hspells, hus⟩ := isValueText_capacity h
    have hopening : Closes "let mut _args: Vec<mock::Value> = Vec::with_capacity("
        (.word "let" :: ([.word "mut", .word "_args"] ++ (.mark ":" :: (pathShapes ["Vec"] ++
          argsShapes [pathShapes ["mock", "Value"]]) ++ .mark "=" :: (pathShapes ["Vec", "with_capacity"] ++ [.mark "("])))) :=
      closes_text (by decide) (by decide)
    have hclosing : Closes ");" [.mark ")", .mark ";"] := closes_text (by decide) (by decide)
    have hline := (hopening.append hspells fun _ _ => trivial).append hclosing fun _ _ => rfl
    have hvalue : IsType (pathShapes ["mock", "Value"]) := isType_path (isTypePath_cons (by decide) [])
    have htype : IsType (pathShapes ["Vec"] ++ argsShapes [pathShapes ["mock", "Value"]]) :=
      isType_generic (isTypePath_word (by decide) (by decide)) (List.forall_mem_singleton.mpr (isArgument_type hvalue))
    have hnew : IsChain "Vec" (pathShapes ["Vec", "with_capacity"]) := isChain_path (by decide) _
    have hchain := hnew.call (List.forall_mem_singleton.mpr hus)
    have hread := isStatement_let (isPattern_name (x := "_args") (by decide)).mut (.type htype) hchain.isExpression
    have hstatement : IsStatementCode [.line ("let mut _args: Vec<mock::Value> = Vec::with_capacity(" ++
        Recording.capacity rs ++ ");")] :=
      ⟨_, prints_line hline.spells, by simpa [listShapes, separatedBy] using hread⟩
    exact hstatement.append (.flatMap (fun r hr => isStatementCode_recording (h r hr)) hrest)

end Recording

section Call

/-- The sign of inequality has nothing between its characters. -/
theorem closes_unequal : Closes "!= " unequal := by
  have hbang : SpellsTight (fun _ => True) "!" [.mark "!"] :=
    spellsTight_of_readToken (c := '!') rfl (by decide) fun _ _ => readToken_mark rfl
  have hequals : SpellsTight (fun more => more.head? = some ' ') "=" [.mark "="] := by
    refine spellsTight_of_readToken (c := '=') rfl (by decide) fun more hmore => readToken_mark ?_
    obtain ⟨rest, rfl⟩ := List.head?_eq_some_iff.mp hmore
    rfl
  have hblank : Closes " " [] := .of_isGap (isGap_blank (by decide))
  have hsign := (hbang.append hequals fun _ _ => trivial).spells (by decide)
  exact hsign.append hblank fun _ _ => rfl

private theorem unquoted_of_isWord {x : String} (h : IsWord x) : ∀ c ∈ x.toList, c ≠ '"' ∧ c ≠ '\\' := by
  have hplain : ∀ w, IsPlain w → ∀ c ∈ w, c ≠ '"' ∧ c ≠ '\\' := fun w hw c hc =>
    ⟨Syntax.isNameContinue_ne (hw.2 c hc) (by decide), Syntax.isNameContinue_ne (hw.2 c hc) (by decide)⟩
  rcases h with hx | ⟨w, hx, hw⟩
  · exact hplain _ hx
  · rw [hx]
    exact List.forall_mem_cons.mpr ⟨by decide, List.forall_mem_cons.mpr ⟨by decide, hplain w hw⟩⟩

/-- The name of a method in quotes. -/
theorem closes_methodName {x : String} (h : IsWord x) : Closes (inQuotes x) [⟨.string, inQuotes x, false⟩] :=
  closes_inQuotes (unquoted_of_isWord h)

theorem isValueText_arguments (isEmpty : Bool) :
    IsValueText ("mock::Arguments::" ++ if isEmpty then "new()" else "from(_args)") := by
  cases isEmpty with
  | true =>
    have hnew : Closes ("mock::Arguments::" ++ "new()") (pathShapes ["mock", "Arguments", "new"] ++ listShapes [] []) :=
      closes_text (by decide) (by decide)
    exact ⟨_, hnew.spells, ((isChain_path (by decide) ["Arguments", "new"]).applied isApplied_noArguments).isExpression⟩
  | false =>
    have hname : IsName "_args" := isName_literal (w := "args".toList) rfl (by decide)
    have hfrom : Closes ("mock::Arguments::" ++ "from(_args)")
        (pathShapes ["mock", "Arguments", "from"] ++ listShapes [[.word "_args"]] []) :=
      closes_text (by decide) (by decide)
    have hmake : IsChain "mock" (pathShapes ["mock", "Arguments", "from"]) := isChain_path (by decide) _
    have hcall := hmake.call (List.forall_mem_singleton.mpr hname.chain.isExpression)
    exact ⟨_, hfrom.spells, hcall.isExpression⟩

/-- A question to the mock about a method, with its name and the arguments. -/
theorem closes_question {opening name args : String} {heads us : List Shape}
    (hopening : Closes opening (heads ++ [.mark "("])) (hheads : IsChain "self" heads) (hname : IsWord name)
    (hargs : Spells args us) (hus : IsExpression .free us) :
    ∃ ss, Closes (opening ++ inQuotes name ++ ", " ++ args ++ ")") ss ∧ IsChain "self" ss := by
  have hitems : List.Forall₂ Spells [inQuotes name, args] [[⟨.string, inQuotes name, false⟩], us] :=
    .cons (closes_methodName hname).spells (.cons hargs .nil)
  obtain ⟨hall, hchain⟩ := closes_calls hopening hheads hitems
    (List.forall_mem_cons.mpr ⟨isExpression_string _, List.forall_mem_singleton.mpr hus⟩)
  have htext : commas [inQuotes name, args] = inQuotes name ++ ", " ++ args := by
    simp [commas, String.append_assoc]
  rw [htext, ← String.append_assoc, ← String.append_assoc] at hall
  exact ⟨_, hall, hchain⟩

theorem call_eq (b : MethodBody) : b.call = "self.mock.call(" ++ inQuotes b.method ++ ", " ++
    ("mock::Arguments::" ++ if b.recordings.isEmpty then "new()" else "from(_args)") ++ ")" ++ ";" := by
  unfold MethodBody.call
  split <;> simp [String.append_assoc]

theorem exists_call {b : MethodBody} (h : IsWord b.method) :
    ∃ text ss, b.call = text ++ ";" ∧ Spells text ss ∧ IsChain "self" ss := by
  have hopening : Closes "self.mock.call("
      (pathShapes ["self"] ++ [.mark ".", .word "mock"] ++ [.mark ".", .word "call"] ++ [.mark "("]) :=
    closes_text (by decide) (by decide)
  obtain ⟨us, hargs, hus⟩ := isValueText_arguments b.recordings.isEmpty
  obtain ⟨ss, hspells, hchain⟩ := closes_question hopening ((isChain_self.field "mock").field "call") h hargs hus
  exact ⟨_, ss, call_eq b, hspells.spells, hchain⟩

end Call

section Positions

/-- All that is written of a function that produces a value is read as what it stands for. -/
structure Producer.IsRead (f : Producer) : Prop where
  type : IsTypeText f.type
  args : ∀ a ∈ f.args, IsValueText a
  copies : ∀ c ∈ f.copies, IsName c.1 ∧ IsTypeText c.2

/-- All that is written of a position is read as what it stands for. -/
structure Position.IsRead (p : Position) : Prop where
  type : IsTypeText p.type
  producer : ∀ f ∈ p.producer, f.IsRead

variable {p : Position} {f : Producer}

/-- What ends the run of a test when a value is missing. -/
def fallbackShapes : List Shape :=
  .mark "|" :: .word "e" :: .mark "|" :: (pathShapes ["self"] ++ [.mark ".", .word "t"] ++ [.mark ".", .word "fatal"] ++
    listShapes [[.mark "&", .word "e"]] [])

private theorem isExpression_fallback : IsExpression .free fallbackShapes := by
  have he : IsChain "e" (pathShapes ["e"]) := isChain_path (by decide) []
  have hborrow : IsExpression .free (.mark "&" :: pathShapes ["e"]) :=
    (he.isTerm.borrow (by decide)).isExpression fun _ hm => hm
  exact isExpression_closure (by decide)
    (((isChain_self.field "t").field "fatal").call (List.forall_mem_singleton.mpr hborrow)).isExpression

private theorem configured_eq (p : Position) : p.configured = "mock::returned!(_rets, " ++ (toString p.index ++ ", " ++ p.type) ++
    ")" ++ ".unwrap_or_else(|e| self.t.fatal(&e))" := by
  unfold Position.configured
  simp [String.append_assoc]

theorem exists_configured (h : IsTypeText p.type) : ∃ ss, Closes p.configured ss ∧ IsPlainExpression ss := by
  obtain ⟨ts, hts, htype⟩ := h
  have hopening : Closes "mock::returned!(_rets, "
      ([.word "mock", .mark "::", .word "returned", .mark "!", .mark "("] ++ [.word "_rets", .mark ","]) :=
    closes_text (by decide) (by decide)
  have hinner := ((spells_number p.index).append closes_comma fun _ _ => rfl).append hts fun _ _ => trivial
  have hnumber : (⟨.number, toString p.index, false⟩ : Shape).IsInner := fun h => by cases h.1
  have hbalanced : Balanced ([.word "_rets", .mark ","] ++ ([⟨.number, toString p.index, false⟩] ++ [.mark ","] ++ ts)) :=
    .cons (by decide) (.cons (by decide) (.cons hnumber (.cons (by decide) htype.flat.balanced)))
  obtain ⟨us, hus, hchain⟩ := exists_invocation hopening hinner hbalanced
  have hfallback : Closes ".unwrap_or_else(|e| self.t.fatal(&e))"
      ([.mark ".", .word "unwrap_or_else"] ++ listShapes [fallbackShapes] []) := closes_text (by decide) (by decide)
  have hall := hus.append hfallback fun _ _ => trivial
  have hread := (hchain.field "unwrap_or_else").call (List.forall_mem_singleton.mpr isExpression_fallback)
  rw [List.append_assoc] at hread
  rw [configured_eq]
  exact ⟨_, hall, hread.isPlainExpression (by decide)⟩

/-- The question for the function that was configured. -/
theorem exists_produced (h : f.IsRead) (p : Position) :
    ∃ ss us, Closes (p.produced f) (ss ++ us) ∧ IsChain "_rets" ss ∧ IsApplied us := by
  obtain ⟨ts, hts, htype⟩ := h.type
  have hopening : Closes "_rets.func::<" (pathShapes ["_rets"] ++ [.mark ".", .word "func", .mark "::", .mark "<"]) :=
    closes_text (by decide) (by decide)
  have hmid : Closes ">(" [.mark ">", .mark "("] := closes_text (by decide) (by decide)
  have hfront := (hopening.append hts fun _ _ => trivial).append hmid fun _ _ => rfl
  have hall := (hfront.append (spells_number p.index) fun _ _ => trivial).append closes_closing fun _ _ => rfl
  have hne : [ts] ≠ [] := List.cons_ne_nil ts []
  have hrets : IsChain "_rets" (pathShapes ["_rets"]) := isChain_path (by decide) []
  have hchain := hrets.applied (isApplied_turbofish "func" hne (List.forall_mem_singleton.mpr (isArgument_type htype)))
  have hcall := isApplied_call (List.forall_mem_singleton.mpr (isExpression_number (toString p.index))) (.inl rfl)
  refine ⟨_, _, ?_, hchain, hcall⟩
  unfold Position.produced
  simpa [argsShapes, listShapes, separatedBy] using hall

theorem exists_callee (h : f.IsRead) : ∃ ss, Closes f.call ss ∧ IsPlainExpression ss := by
  obtain ⟨items, hspells, hitems⟩ := exists_items h.args
  have hopening : Closes "_f(" (pathShapes ["_f"] ++ [.mark "("]) := closes_text (by decide) (by decide)
  obtain ⟨hall, hchain⟩ := closes_calls hopening (isChain_path (by decide) []) hspells hitems
  exact ⟨_, hall, hchain.isPlainExpression (by decide)⟩

/-- A text that is read as an arm of a match. -/
def IsArmText (text : String) : Prop := ∃ ss, Spells text ss ∧ IsArm ss

theorem isArmText {opening value : String} {pattern vs : List Shape} (hopening : Closes opening (pattern ++ [.mark "=>"]))
    (hpattern : IsPattern pattern) (hvalue : Closes value vs) (hvs : IsPlainExpression vs) :
    IsArmText (opening ++ value ++ ",") := by
  have hcomma : Closes "," [.mark ","] := closes_text (by decide) (by decide)
  have hall := (hopening.append hvalue fun _ _ => trivial).append hcomma fun _ _ => trivial
  exact ⟨_, hall.spells, by simpa using IsArm.arm hpattern hvs⟩

/-- The arms that take what a function produces, or else what was configured. -/
theorem isArmText_call {opening : String} {pattern : List Shape} (hf : f.IsRead)
    (hopening : Closes opening (pattern ++ [.mark "=>"])) (hpattern : IsPattern pattern) :
    IsArmText (opening ++ f.call ++ ",") := by
  obtain ⟨vs, hvs, hvalue⟩ := exists_callee hf
  exact isArmText hopening hpattern hvs hvalue

theorem isArmText_configured {opening x : String} (hp : p.IsRead) (hx : x ∉ patternWords)
    (hopening : Closes opening ([.word x] ++ [.mark "=>"])) : IsArmText (opening ++ p.configured ++ ",") := by
  obtain ⟨vs, hvs, hvalue⟩ := exists_configured hp.type
  exact isArmText hopening (isPattern_name hx) hvs hvalue

/-- A local of the type `ts` that is bound to what follows. -/
def bindingShapes (i : Nat) (ts : List Shape) : List Shape :=
  .word "let" :: .word (resultLocal i) :: .mark ":" :: (ts ++ [.mark "="])

theorem exists_opening (hp : p.IsRead) : ∃ ts, IsType ts ∧ Closes p.opening (bindingShapes p.index ts) := by
  obtain ⟨ts, hts, htype⟩ := hp.type
  have hlet : Closes "let " [.word "let"] := closes_text (by decide) (by decide)
  have hcolon : Closes ": " [.mark ":"] := closes_text (by decide) (by decide)
  have hequals : Closes " = " [.mark "="] := closes_text (by decide) (by decide)
  have hname := hlet.append (spells_word (isName_resultLocal p.index).word) fun _ _ => trivial
  have hfront := (hname.append hcolon fun _ _ => rfl).append hts fun _ _ => trivial
  unfold Position.opening
  exact ⟨ts, htype, by simpa [bindingShapes] using hfront.append hequals fun _ _ => rfl⟩

theorem isStatement_position {ts vs : List Shape} (i : Nat) (htype : IsType ts) (h : IsExpression .free vs) :
    IsStatement (bindingShapes i ts ++ (vs ++ [.mark ";"])) := by
  simpa [bindingShapes] using isStatement_let (isName_resultLocal i).pattern (.type htype) h

/-- A local that takes its value from a match. -/
theorem isStatementCode_match {front : List Code} {head : String} {arms : List String} {fs hs ts ss : List Shape} (i : Nat)
    (htype : IsType ts) (hfront : Prints front fs) (hhead : Spells head hs)
    (hshapes : fs ++ hs = bindingShapes i ts ++ (.word "match" :: ss)) (hss : IsExpression .beforeBlock ss)
    (hne : arms ≠ []) (harms : ∀ a ∈ arms, IsArmText a) :
    IsStatementCode (front ++ Code.bracedThen head (arms.map .line) ";") := by
  obtain ⟨items, hspells, hitems⟩ := exists_items harms
  have hitem : items ≠ [] := by
    rintro rfl
    exact hne (List.forall₂_nil_right_iff.mp hspells)
  have hprints := hfront.append ((prints_lines hspells).bracedThen hhead closes_semicolon.spells)
  have hprimary : IsPrimary stops _ := isPrimary_match hss hitem hitems
  have hstatement := isStatement_position i htype (hprimary.isExpression (by decide) (by decide))
  rw [← List.append_assoc, hshapes] at hprints
  exact ⟨_, hprints, by simpa using hstatement⟩

private theorem isStatementCode_configured (hp : p.IsRead) (h : p.producer = none) : IsStatementCode p.code := by
  obtain ⟨ts, htype, hopening⟩ := exists_opening hp
  obtain ⟨vs, hvs, hvalue⟩ := exists_configured hp.type
  have hline := (hopening.append hvs fun _ _ => trivial).append closes_semicolon fun _ _ => trivial
  rw [code_of_configured h]
  exact ⟨_, prints_line hline.spells, by simpa using isStatement_position p.index htype hvalue.toIsExpression⟩

private theorem isStatementCode_producer (hp : p.IsRead) (hf : f.IsRead) (h : p.producer = some f) (hcopies : f.copies = []) :
    IsStatementCode p.code := by
  obtain ⟨ts, htype, hopening⟩ := exists_opening hp
  obtain ⟨ss, us, hspells, hchain, happlied⟩ := exists_produced hf p
  have hmatch : Closes "match " [.word "match"] := closes_text (by decide) (by decide)
  have hhead := (hopening.append hmatch fun _ _ => trivial).append hspells fun _ _ => trivial
  have hsome : Closes "Some(_f) => " (.word "Some" :: .mark "(" :: (separatedBy (.mark ",") [[.word "_f"]] ++ [.mark ")"]) ++
      [.mark "=>"]) := closes_text (by decide) (by decide)
  have hnone : Closes "None => " ([.word "None"] ++ [.mark "=>"]) := closes_text (by decide) (by decide)
  have hpattern : IsPattern [.word "_f"] := isPattern_name (by decide)
  have harms : ∀ a ∈ ["Some(_f) => " ++ f.call ++ ",", "None => " ++ p.configured ++ ","], IsArmText a :=
    List.forall_mem_cons.mpr
      ⟨isArmText_call hf hsome (isPattern_call (by decide) (List.forall_mem_singleton.mpr hpattern)),
        List.forall_mem_singleton.mpr (isArmText_configured hp (by decide) hnone)⟩
  rw [code_of_producer h hcopies]
  exact isStatementCode_match p.index htype Code.prints_nil hhead.spells (by simp)
    (hchain.isExpression_beforeBlock happlied) (by simp) harms

/-- A copy that is asked for. -/
theorem exists_copy {c : String × String} (hname : IsName c.1) (htype : IsTypeText c.2) :
    ∃ ss, Spells (copyText c) (ss ++ [.mark ","]) ∧ IsExpression .free ss := by
  obtain ⟨ts, hts, hread⟩ := htype
  have hopening : Closes "mock::try_clone!(&"
      ([.word "mock", .mark "::", .word "try_clone", .mark "!", .mark "("] ++ [.mark "&"]) :=
    closes_text (by decide) (by decide)
  have hinner := ((spells_word hname.word).append closes_comma fun _ _ => rfl).append hts fun _ _ => trivial
  have hbalanced : Balanced ([.mark "&"] ++ ([.word c.1] ++ [.mark ","] ++ ts)) :=
    .cons (by decide) (.cons (isFlat_word c.1).isInner (.cons (by decide) hread.flat.balanced))
  obtain ⟨ss, hss, hchain⟩ := exists_invocation hopening hinner hbalanced
  have hend : Closes "," [.mark ","] := closes_text (by decide) (by decide)
  have htext : copyText c = "mock::try_clone!(&" ++ (c.1 ++ ", " ++ c.2) ++ ")" ++ "," := by
    unfold copyText
    simp [String.append_assoc]
  rw [htext]
  exact ⟨ss, (hss.append hend fun _ _ => trivial).spells, hchain.isExpression⟩

/-- What is asked for in the head of the match. -/
theorem exists_questions (hf : f.IsRead) (p : Position) : ∃ items, items ≠ [] ∧ (∀ us ∈ items, IsExpression .free us) ∧
    List.Forall₂ (fun text ss => Spells text (ss ++ [.mark ","])) ((p.produced f ++ ",") :: f.copies.map copyText)
      items := by
  obtain ⟨ss, us, hspells, hchain, happlied⟩ := exists_produced hf p
  have hcomma : Closes "," [.mark ","] := closes_text (by decide) (by decide)
  have hfirst := (hspells.append hcomma fun _ _ => trivial).spells
  have hcopies : ∀ text ∈ f.copies.map copyText, ∃ ss, Spells text (ss ++ [.mark ","]) ∧ IsExpression .free ss := by
    intro text htext
    obtain ⟨c, hc, rfl⟩ := List.mem_map.mp htext
    exact exists_copy (hf.copies c hc).1 (hf.copies c hc).2
  obtain ⟨items, hitems, hall⟩ := exists_items hcopies
  exact ⟨_, List.cons_ne_nil _ items, List.forall_mem_cons.mpr ⟨(hchain.applied happlied).isExpression, hall⟩,
    .cons hfirst hitems⟩

private theorem flatten_commas {items : List (List Shape)} (hne : items ≠ []) :
    (items.map (· ++ [.mark ","])).flatten = separatedBy (.mark ",") items ++ [.mark ","] := by
  induction items with
  | nil => exact absurd rfl hne
  | cons first more ih =>
    cases more with
    | nil => simp [separatedBy]
    | cons second others =>
      rw [List.map_cons, List.flatten_cons, ih (by simp)]
      simp [separatedBy]

/-- A pattern of a value that is there. -/
def somePattern (x : String) : List Shape :=
  .word "Some" :: .mark "(" :: (separatedBy (.mark ",") [[.word x]] ++ [.mark ")"])

private theorem isPattern_some {x : String} (h : IsName x) : IsPattern (somePattern x) :=
  isPattern_call (by decide) (List.forall_mem_singleton.mpr h.pattern)

private theorem spells_some {x : String} (h : IsName x) : Spells ("Some(" ++ x ++ ")") (somePattern x) := by
  have hopening : Closes "Some(" [.word "Some", .mark "("] := closes_text (by decide) (by decide)
  have hall := (hopening.append (spells_word h.word) fun _ _ => trivial).append closes_closing fun _ _ => rfl
  exact hall.spells

private theorem exists_found (hf : f.IsRead) : ∃ pattern, IsPattern pattern ∧ Closes f.found (pattern ++ [.mark "=>"]) := by
  have hnames : ∀ x ∈ "_f" :: f.copies.map (·.1), IsName x := by
    refine List.forall_mem_cons.mpr ⟨isName_literal (w := ['f']) rfl (by decide), fun x hx => ?_⟩
    obtain ⟨c, hc, rfl⟩ := List.mem_map.mp hx
    exact (hf.copies c hc).1
  have hitems : List.Forall₂ Spells (("_f" :: f.copies.map (·.1)).map fun x => "Some(" ++ x ++ ")")
      (("_f" :: f.copies.map (·.1)).map somePattern) := by
    rw [List.forall₂_map_left_iff, List.forall₂_map_right_iff, List.forall₂_same]
    exact fun x hx => spells_some (hnames x hx)
  have hpatterns : ∀ ss ∈ ("_f" :: f.copies.map (·.1)).map somePattern, IsPattern ss := by
    intro ss hss
    obtain ⟨x, hx, rfl⟩ := List.mem_map.mp hss
    exact isPattern_some (hnames x hx)
  have harrow : Closes ") => " [.mark ")", .mark "=>"] := closes_text (by decide) (by decide)
  have hall := (closes_opening.append (Signature.spells_commas hitems) fun _ _ => trivial).append harrow fun _ _ => rfl
  refine ⟨_, isPattern_tuple hpatterns, ?_⟩
  unfold Producer.found
  simpa [commas, Function.comp_def] using hall

private theorem isStatementCode_copies (hp : p.IsRead) (hf : f.IsRead) (h : p.producer = some f) (hcopies : f.copies ≠ []) :
    IsStatementCode p.code := by
  obtain ⟨ts, htype, hopening⟩ := exists_opening hp
  obtain ⟨items, hne, hitems, hquestions⟩ := exists_questions hf p
  obtain ⟨pattern, hpattern, hfound⟩ := exists_found hf
  have hmatch : Closes "match (" [.word "match", .mark "("] := closes_text (by decide) (by decide)
  have hother : Closes "_ => " ([.word "_"] ++ [.mark "=>"]) := closes_text (by decide) (by decide)
  have hline := prints_line (hopening.append hmatch fun _ _ => trivial).spells
  have hlines := (prints_lines (List.forall₂_map_right_iff.mpr hquestions)).inner
  rw [flatten_commas hne] at hlines
  have harms : ∀ a ∈ [f.found ++ f.call ++ ",", "_ => " ++ p.configured ++ ","], IsArmText a :=
    List.forall_mem_cons.mpr ⟨isArmText_call hf hfound hpattern,
      List.forall_mem_singleton.mpr (isArmText_configured hp (by decide) hother)⟩
  have hscrutinee : IsPrimary ["\x7b"] (listShapes items [.mark ","]) := isPrimary_tuple hitems (.inr ⟨hne, rfl⟩)
  rw [code_of_copies h hcopies]
  exact isStatementCode_match p.index htype (hline.append hlines) closes_closing.spells (by simp [listShapes])
    (hscrutinee.isExpression (by decide) (by decide)) (by simp) harms

private theorem isStatementCode_position (hp : p.IsRead) : IsStatementCode p.code := by
  cases hproducer : p.producer with
  | none => exact isStatementCode_configured hp hproducer
  | some f =>
    by_cases hcopies : f.copies = []
    · exact isStatementCode_producer hp (hp.producer f hproducer) hproducer hcopies
    · exact isStatementCode_copies hp (hp.producer f hproducer) hproducer hcopies

end Positions

section Bodies

variable {b : MethodBody}

private theorem isStatementCode_fatal : IsStatementCode [.line ("self.t.fatal(" ++ inQuotes MethodBody.countMismatch ++ ");")] := by
  have hopening : Closes "self.t.fatal(" (pathShapes ["self"] ++ [.mark ".", .word "t"] ++ [.mark ".", .word "fatal"] ++
      [.mark "("]) := closes_text (by decide) (by decide)
  have hall : (MethodBody.countMismatch.toList.all fun c => c != '"' && c != '\\') = true := by decide
  have hunquoted : ∀ c ∈ MethodBody.countMismatch.toList, c ≠ '"' ∧ c ≠ '\\' := by simpa using List.all_eq_true.mp hall
  have hmessage : Closes (inQuotes MethodBody.countMismatch) _ := closes_inQuotes hunquoted
  obtain ⟨hall, hchain⟩ := closes_call hopening ((isChain_self.field "t").field "fatal") hmessage.spells (isExpression_string _)
  rw [append_closing]
  exact isStatementCode_line hall.spells (hchain.isPlainExpression (by decide))

/-- The mock has to return so many values. -/
theorem isStatementCode_count (n : Nat) : IsStatementCode (Code.braced ("if _rets.len() != " ++ toString n)
    [.line ("self.t.fatal(" ++ inQuotes MethodBody.countMismatch ++ ");")]) := by
  obtain ⟨us, hprints, hus⟩ := isStatementCode_fatal
  have hfront : Closes "if _rets.len() " (.word "if" :: (pathShapes ["_rets"] ++ [.mark ".", .word "len"] ++ listShapes [] [])) :=
    closes_text (by decide) (by decide)
  have hhead := (hfront.append closes_unequal fun _ _ => trivial).append (spells_number n) fun _ _ => trivial
  have hrets : IsChain "_rets" (pathShapes ["_rets"]) := isChain_path (by decide) []
  have hnumber : IsPrimary ("\x7b" :: operatorMarks ++ stops) [⟨.number, toString n, false⟩] := isPrimary_number _
  have hright : IsTerm (behind .beforeBlock) [⟨.number, toString n, false⟩] :=
    hnumber.isTerm_alone (by decide) (by decide)
  have hcondition := isExpression_binary (p := .beforeBlock) ((hrets.field "len").isTerm_applied isApplied_noArguments (by decide)) .unequal
    hright hnumber.start fun _ hm => hm
  have hread := isBlockLike_if hcondition (.cons hus .nil)
  exact ⟨_, hprints.braced hhead, by simpa [blockShapes] using hread.isStatement⟩

private theorem isStatementCode_call (h : IsWord b.method) : IsStatementCode [.line b.call] := by
  obtain ⟨text, ss, htext, hspells, hchain⟩ := exists_call h
  rw [htext]
  exact isStatementCode_line hspells (hchain.isPlainExpression (by decide))

private theorem isStatementCode_rets (h : IsWord b.method) : IsStatementCode [.line ("let _rets = " ++ b.call)] := by
  obtain ⟨text, ss, htext, hspells, hchain⟩ := exists_call h
  have hlet : Closes "let _rets = " [.word "let", .word "_rets", .mark "="] := closes_text (by decide) (by decide)
  have hall := (hlet.append hspells fun _ _ => trivial).append closes_semicolon fun _ _ => rfl
  have hread := isStatement_let (isPattern_name (x := "_rets") (by decide)) .nil hchain.isExpression
  rw [htext, ← String.append_assoc]
  exact ⟨_, prints_line hall.spells, by simpa using hread⟩

/-- The result is the local of the only position, or a tuple of the locals. -/
theorem isBodyCode_result (hsingle : b.isTuple = false → b.positions.length = 1) : IsBodyCode [.line b.result] := by
  have hlocals : ∀ x ∈ b.positions.map fun p => resultLocal p.index, ∃ ss, Spells x ss ∧ IsPlainExpression ss := by
    intro x hx
    obtain ⟨p, _, rfl⟩ := List.mem_map.mp hx
    have hname := isName_resultLocal p.index
    have hhead : (resultLocal p.index).toList.head? = some '_' := by simp [resultLocal]
    exact ⟨_, spells_word hname.word, hname.chain.isPlainExpression (not_mem_of_underscore hhead (by decide))⟩
  obtain ⟨items, hspells, hitems⟩ := exists_items hlocals
  rw [MethodBody.result]
  cases htuple : b.isTuple with
  | true =>
    have hall := (closes_opening.append (Signature.spells_commas hspells) fun _ _ => trivial).append closes_closing fun _ _ => rfl
    have hprimary : IsPrimary stops (listShapes items []) :=
      isPrimary_tuple (fun us hus => (hitems us hus).toIsExpression) (.inl rfl)
    have hread : IsExpression .free (listShapes items []) := hprimary.isExpression (by decide) (by decide)
    exact isBodyCode_value (by simpa [listShapes, commas] using hall.spells) ⟨hread, _, rfl, .inr ⟨rfl, rfl⟩⟩
  | false =>
    obtain ⟨p, hp⟩ := List.length_eq_one_iff.mp (hsingle htuple)
    rw [hp] at hspells ⊢
    obtain ⟨ss, rest, hss, hrest, rfl⟩ := List.forall₂_cons_left_iff.mp hspells
    exact isBodyCode_value (by simpa [commas] using hss) (hitems ss List.mem_cons_self)

private theorem isStatementCode_helper : IsStatementCode [.line "self.t.helper();"] := by
  have hspells : Closes "self.t.helper()" (pathShapes ["self"] ++ [.mark ".", .word "t"] ++ [.mark ".", .word "helper"] ++
      listShapes [] []) := closes_text (by decide) (by decide)
  have htext : ("self.t.helper();" : String) = "self.t.helper()" ++ ";" := by decide
  rw [htext]
  exact isStatementCode_line hspells.spells ((((isChain_self.field "t").field "helper").applied isApplied_noArguments).isPlainExpression (by decide))

theorem isBodyCode_code (hname : IsWord b.method) (hrecordings : ∀ r ∈ b.recordings, r.IsRead)
    (hpositions : ∀ p ∈ b.positions, p.IsRead) (hsingle : b.isTuple = false → b.positions.length ≤ 1) :
    IsBodyCode b.code := by
  refine isStatementCode_helper.append (isBodyCode_codeOf hrecordings ?_)
  split
  · exact (isStatementCode_call hname).append isBodyCode_nil
  · rename_i hne
    have hlength : b.isTuple = false → b.positions.length = 1 := fun htuple => by
      have hpos : 0 < b.positions.length := List.length_pos_of_ne_nil (by simpa using hne)
      have hle := hsingle htuple
      omega
    have hend := (isStatementCode_count b.positions.length).append
      (IsBodyCode.flatMap (fun p hp => isStatementCode_position (hpositions p hp)) (isBodyCode_result hlength))
    exact (isStatementCode_rets hname).append (by simpa [Code.braced, Code.bracedThen] using hend)

end Bodies

end TraitMock.Generation
