import TraitMock.Proofs.Generation.Declarations

namespace TraitMock.Generation

open Syntax (Balanced Closes IsGap IsPlain IsWord Shape Spells closes_text isGap_blank isGap_nil separates spells_literal
  spells_word)
open Syntax.Reader
open Signature (IsPathText)
open Code (Prints prints_blank prints_comment prints_line prints_lines)

section Own

/-- The names that a mock uses for itself can stand for types. -/
structure MockNames.IsWritten (n : MockNames) : Prop where
  mock : IsWord n.mock
  mockPath : IsTypePath [n.mock]
  tester : IsWord n.tester
  testerPath : n.tester ∉ typeWords

variable {n : MockNames}

def testerShapes (tester : String) : List Shape :=
  pathShapes ["Arc"] ++ argsShapes [.word "dyn" :: pathShapes [tester, "TestingT"]]

theorem isType_tester (h : n.IsWritten) : IsType (testerShapes n.tester) := by
  have hargs : ∀ ss ∈ ([] : List (List Shape)), IsArgument ss := by simp
  have hpath : IsTypePath [n.tester, "TestingT"] := isTypePath_cons h.testerPath []
  have hbound := isBound_path hpath hargs (by simp)
  have hobject : IsType (.word "dyn" :: pathShapes [n.tester, "TestingT"]) := by
    simpa [argsShapes] using ((isSingle_dyn hbound).mono fun _ => List.mem_cons_of_mem _).isType
  exact isType_generic (isTypePath_word (by decide) (by decide)) (List.forall_mem_singleton.mpr (isArgument_type hobject))

theorem closes_tester (h : n.IsWritten) : Closes n.testerType (testerShapes n.tester) := by
  have hopening : Closes "Arc<dyn " [.word "Arc", .mark "<", .word "dyn"] := closes_text (by decide) (by decide)
  have hend : Closes "::TestingT>" [.mark "::", .word "TestingT", .mark ">"] := closes_text (by decide) (by decide)
  have hall := (hopening.append (spells_word h.tester) fun _ _ => trivial).append hend fun _ _ => rfl
  unfold MockNames.testerType
  simpa [testerShapes, pathShapes, argsShapes, separatedBy] using hall

private theorem isItemsCode_struct (h : n.IsWritten) : IsItemsCode 2 (Code.braced ("pub struct " ++ n.mock)
    [.line "pub mock: mock::Mock,", .line ("t: " ++ n.testerType ++ ",")]) := by
  have hpub : Closes "pub struct " [.word "pub", .word "struct"] := closes_text (by decide) (by decide)
  have hhead := hpub.append (spells_word h.mock) fun _ _ => trivial
  have hmock : Closes "pub mock: mock::Mock," (.word "pub" :: .word "mock" :: .mark ":" :: pathShapes ["mock", "Mock"] ++
      [.mark ","]) := closes_text (by decide) (by decide)
  have ht : Closes "t: " [.word "t", .mark ":"] := closes_text (by decide) (by decide)
  have hcomma : Closes "," [.mark ","] := closes_text (by decide) (by decide)
  have htester := (ht.append (closes_tester h) fun _ _ => trivial).append hcomma fun _ _ => trivial
  have hlines := (prints_line hmock.spells).append (prints_line htester.spells)
  have hfields : ∀ us ∈ [.word "pub" :: .word "mock" :: .mark ":" :: pathShapes ["mock", "Mock"],
      .word "t" :: .mark ":" :: testerShapes n.tester], IsNamedField us := by
    refine List.forall_mem_cons.mpr ⟨?_, List.forall_mem_singleton.mpr ?_⟩
    · exact .field .word (by decide) (isType_path (isTypePath_cons (by decide) []))
    · exact .field .none (by decide) (isType_tester h)
  have hitem : IsItem 2 _ := ⟨by simp, fun m => takes_item_struct .word n.mock (List.cons_ne_nil _ _) hfields⟩
  refine hitem.isItemsCode ?_
  simpa [structShapes, separatedBy] using hlines.braced hhead

private theorem isItemsCode_type (h : n.IsWritten) {root : String} (hroot : '\n' ∉ root.toList) :
    IsItemsCode 2 (n.typeCode root) := by
  have hcomment : IsItemsCode 2 [.line ("/// Mock implementation of [" ++ Text.ticked root ++ "].")] := by
    have hslashes : ("/// Mock implementation of [" : String) = "//" ++ "/ Mock implementation of [" := by decide
    have hline : '\n' ∉ ("/ Mock implementation of [" ++ (Text.ticked root ++ "].")).toList := by
      simp [Text.ticked, hroot]
    rw [hslashes, String.append_assoc, String.append_assoc]
    exact ⟨[], prints_comment hline, by simp⟩
  have hderive : Closes "#[derive(Clone)]" (attributeShapes ⟨false, []⟩ "derive" (.mark "(" :: ([.word "Clone"] ++ [.mark ")"]))) :=
    closes_text (by decide) (by decide)
  have hattribute := isItemsCode_attribute ⟨false, []⟩ "derive" (.group (o := "(") rfl (balanced_word "Clone")) hderive.spells
  exact (isItemsCode_blank.append hcomment).append ((hattribute.mono (by decide)).append (isItemsCode_struct h))

/-- What makes a mock is a structure with the two fields. -/
theorem isBodyCode_self : IsBodyCode (Code.braced "Self" [.line "mock: mock::Mock::new(t.clone()),", .line "t,"]) := by
  have hself : Spells "Self" [.word "Self"] := spells_literal (by decide)
  have hmock : Closes "mock: mock::Mock::new(t.clone())," (.word "mock" :: .mark ":" :: (pathShapes ["mock", "Mock", "new"] ++
      listShapes [pathShapes ["t"] ++ [.mark ".", .word "clone"] ++ listShapes [] []] []) ++ [.mark ","]) :=
    closes_text (by decide) (by decide)
  have ht : Closes "t," [.word "t", .mark ","] := closes_text (by decide) (by decide)
  have hlines := (prints_line hmock.spells).append (prints_line ht.spells)
  have hname : IsChain "t" (pathShapes ["t"]) := isChain_path (by decide) []
  have hmodule : IsChain "mock" (pathShapes ["mock", "Mock", "new"]) := isChain_path (by decide) _
  have hnew := hmodule.call (List.forall_mem_singleton.mpr ((hname.field "clone").applied isApplied_noArguments).isExpression)
  have hfields : ∀ us ∈ [_, _], IsField us := List.forall_mem_cons.mpr ⟨.full "mock" hnew.isExpression,
    List.forall_mem_singleton.mpr (.short "t")⟩
  have hread := isExpression_struct (x := "Self") (by decide) (by decide) (List.cons_ne_nil _ _) hfields
  refine ⟨_, hlines.braced hself, .last ⟨by simpa [separatedBy] using hread, _, rfl, .inl ⟨rfl, by decide⟩⟩⟩

theorem isItemsCode_new (h : n.IsWritten) : IsItemsCode 3 n.newCode := by
  have hopening : Closes "pub fn new(t: " [.word "pub", .word "fn", .word "new", .mark "(", .word "t", .mark ":"] :=
    closes_text (by decide) (by decide)
  have hend : Spells ") -> Self" [.mark ")", .mark "->", .word "Self"] := spells_literal (by decide)
  have hhead := (hopening.append (closes_tester h) fun _ _ => trivial).append hend fun _ _ => trivial
  have hself : IsType (pathShapes ["Self"]) := isType_path (isTypePath_word (by decide) (by decide))
  have hread : FunctionShapes.IsRead ⟨[], "new", [], [.word "t" :: .mark ":" :: testerShapes n.tester],
      .mark "->" :: pathShapes ["Self"], []⟩ :=
    ⟨by simp, .nil, List.forall_mem_singleton.mpr (takes_param (by decide) (isType_tester h)), .arrow hself, .nil⟩
  exact isItemsCode_function .word (by simpa [FunctionShapes.shapes, separatedBy, pathShapes] using hhead) hread isBodyCode_self

end Own

section Implementations

theorem closes_impl : Closes "impl " [.word "impl"] := closes_text (by decide) (by decide)

variable {n : MockNames} {body : List Code} {head : String} {trait : List Shape}

def implHead (isUnsafe : Bool) (trait : List Shape) (target : String) : List Shape :=
  (if isUnsafe then [.word "unsafe"] else []) ++ .word "impl" :: (trait ++ [.word target])

/-- An implementation of items that go at most three items deep. -/
theorem isItemsCode_implementation {isUnsafe : Bool} (h : n.IsWritten) (htrait : IsImplemented trait)
    (hhead : Spells head (implHead isUnsafe trait n.mock)) (hbody : IsItemsCode 3 body) :
    IsItemsCode 7 (Code.braced head body) := by
  obtain ⟨items, hprints, hitems⟩ := hbody
  have hitem : IsItem 7 (implShapes isUnsafe trait n.mock items) :=
    ⟨by simp [implShapes], fun m => takes_item_implementation htrait h.mockPath fun us hus =>
      ⟨(hitems us hus).1, (hitems us hus).2 m⟩⟩
  refine hitem.isItemsCode ?_
  simpa [implShapes, implHead] using hprints.braced hhead

private theorem isItemsCode_own (h : n.IsWritten) {ms : List Method} (hms : ∀ m ∈ ms, Method.IsWritten m ∧ IsPlain m.name.toList) :
    IsItemsCode 7 (n.ownCode ms) := by
  have hhead : Spells ("impl " ++ n.mock) (implHead false [] n.mock) := closes_impl.append (spells_word h.mock) fun _ _ => trivial
  have hhelpers : IsItemsCode 3 (ms.flatMap fun m => (Helper.ofMethod (withFreshNames m)).code) :=
    .flatMap fun m hm => isItemsCode_ofMethod (hms m hm).1 (hms m hm).2
  exact isItemsCode_blank.append (isItemsCode_implementation h .none hhead ((isItemsCode_new h).append hhelpers))

/-- The function by which a mock shows itself. -/
theorem isItemsCode_fmt (h : n.IsWritten) : IsItemsCode 3
    (Code.braced "fn fmt(&self, f: &mut std::fmt::Formatter<'_>) -> std::fmt::Result"
      [.line ("f.debug_struct(" ++ inQuotes n.mock ++ ").finish_non_exhaustive()")]) := by
  have hopening : Closes "f.debug_struct(" (pathShapes ["f"] ++ [.mark ".", .word "debug_struct"] ++ [.mark "("]) :=
    closes_text (by decide) (by decide)
  have hf : IsChain "f" (pathShapes ["f"]) := isChain_path (by decide) []
  obtain ⟨hshown, hchain⟩ := closes_call hopening (hf.field "debug_struct") (closes_methodName h.mock).spells
    (isExpression_string _)
  have hfinish : Closes ".finish_non_exhaustive()" ([.mark ".", .word "finish_non_exhaustive"] ++ listShapes [] []) :=
    closes_text (by decide) (by decide)
  have hvalue := hshown.append hfinish fun _ _ => trivial
  have hbody : IsBodyCode [.line ("f.debug_struct(" ++ inQuotes n.mock ++ ").finish_non_exhaustive()")] := by
    have hliteral : (").finish_non_exhaustive()" : String) = ")" ++ ".finish_non_exhaustive()" := by decide
    have hread := (((hchain.field "finish_non_exhaustive").applied isApplied_noArguments).isPlainExpression (by decide))
    rw [hliteral, ← String.append_assoc]
    exact isBodyCode_value hvalue.spells (by simpa using hread)
  have hlifetime : ∀ us ∈ [[⟨.lifetime, "'_", false⟩]], IsArgument us :=
    List.forall_mem_singleton.mpr (isArgument_lifetime "'_")
  have hpath : IsTypePath ["std", "fmt", "Formatter"] := isTypePath_cons (by decide) _
  have hformatter := isSingle_reference none true (isSingle_path hpath hlifetime)
  have hresult : IsType (pathShapes ["std", "fmt", "Result"]) := isType_path (isTypePath_cons (by decide) _)
  have hread : FunctionShapes.IsRead ⟨[], "fmt", [], [[.mark "&", .word "self"], .word "f" :: .mark ":" ::
      (referenceShapes none true ++ (pathShapes ["std", "fmt", "Formatter"] ++ argsShapes [[⟨.lifetime, "'_", false⟩]]))],
      .mark "->" :: pathShapes ["std", "fmt", "Result"], []⟩ :=
    ⟨by simp, .nil, List.forall_mem_cons.mpr ⟨takes_param_self, List.forall_mem_singleton.mpr
      (takes_param (by decide) (hformatter.mono fun _ => List.mem_cons_of_mem _).isType)⟩, .arrow hresult, .nil⟩
  exact isItemsCode_function .none (spells_literal (by decide)) hread hbody

theorem isItemsCode_debug (h : n.IsWritten) : IsItemsCode 7 n.debugCode := by
  have himpl : Closes "impl std::fmt::Debug for " (.word "impl" :: (pathShapes ["std", "fmt", "Debug"] ++ [.word "for"])) :=
    closes_text (by decide) (by decide)
  have hhead : Spells ("impl std::fmt::Debug for " ++ n.mock)
      (implHead false (pathShapes ["std", "fmt", "Debug"] ++ [.word "for"]) n.mock) :=
    himpl.append (spells_word h.mock) fun _ _ => trivial
  exact isItemsCode_blank.append
    (isItemsCode_implementation h (.trait (isTypePath_cons (by decide) _)) hhead (isItemsCode_fmt h))

/-- All that is written of the implementation of a trait can stand where it is written. -/
structure TraitImpl.IsWritten (t : TraitImpl) : Prop where
  path : IsPathText t.path
  asyncMark : ∀ text ∈ t.asyncMark, ∃ front name ss, Spells text (attributeShapes front name ss) ∧ IsAttributeGroup ss
  methods : ∀ m ∈ t.methods, Method.IsWritten m

theorem isItemsCode_impl (h : n.IsWritten) {t : TraitImpl} (ht : TraitImpl.IsWritten t) : IsItemsCode 7 (n.implCode t) := by
  have hmarks : IsItemsCode 7 (t.asyncMark.toList.map Code.line) := by
    cases hmark : t.asyncMark with
    | none => exact isItemsCode_nil
    | some text =>
      obtain ⟨front, name, ss, hspells, hgroup⟩ := ht.asyncMark text hmark
      exact (isItemsCode_attribute front name hgroup hspells).mono (by decide)
  have hhead : Spells ((if t.isUnsafe then "unsafe " else "") ++ "impl " ++ t.path ++ " for " ++ n.mock)
      (implHead t.isUnsafe (pathShapes (Text.segments t.path) ++ [.word "for"]) n.mock) := by
    have hstart : Closes (if t.isUnsafe then "unsafe " else "") (if t.isUnsafe then [.word "unsafe"] else []) := by
      cases t.isUnsafe with
      | false => exact .of_isGap isGap_nil
      | true => exact closes_text (by decide) (by decide)
    have hfor : Closes " for " [.word "for"] := closes_text (by decide) (by decide)
    have hpath := (hstart.append closes_impl fun _ _ => trivial).append (Signature.spells_path ht.path.1) fun _ _ => trivial
    have hall := (hpath.append hfor fun _ _ => rfl).append (spells_word h.mock) fun _ _ => trivial
    simpa [implHead] using hall
  unfold MockNames.implCode
  refine (isItemsCode_blank.append hmarks).append ?_
  split
  · have hbraces : Closes " \x7b\x7d" [.mark "\x7b", .mark "\x7d"] := closes_text (by decide) (by decide)
    have hitem : IsItem 7 (implShapes t.isUnsafe (pathShapes (Text.segments t.path) ++ [.word "for"]) n.mock []) :=
      ⟨by simp [implShapes], fun m => takes_item_implementation (n := m + 3) (.trait ht.path.2) h.mockPath (by simp)⟩
    refine hitem.isItemsCode (prints_line ?_)
    simpa [implShapes, implHead] using (hhead.append hbraces fun _ _ => rfl).spells
  · exact isItemsCode_implementation h (.trait ht.path.2) hhead (isItemsCode_methods ht.methods)

end Implementations

section Interfaces

variable {n : MockNames} {i : Interface}

/-- All that is written of an interface can stand where it is written. -/
structure Interface.IsWritten (i : Interface) : Prop where
  name : IsWord i.name
  traits : ∀ t ∈ i.traits, TraitImpl.IsWritten t

theorem Interface.IsWritten.methods (h : Interface.IsWritten i) : ∀ m ∈ i.methods, Method.IsWritten m := by
  intro m hm
  obtain ⟨t, ht, hmem⟩ := List.mem_flatMap.mp (List.mem_of_find?_eq_some ((firstOfEach i).first m hm))
  exact (h.traits t ht).methods m hmem

theorem newline_notMem_word {w : String} (h : IsWord w) : '\n' ∉ w.toList := by
  rcases h with ⟨-, hall⟩ | ⟨cs, hw, -, hall⟩
  · exact fun hmem => absurd (hall _ hmem) (by decide)
  · rw [hw]
    have hnot : '\n' ∉ cs := fun hmem => absurd (hall _ hmem) (by decide)
    simp [hnot]

private theorem newline_notMem_path {path : String} (h : IsPathText path) : '\n' ∉ path.toList := by
  have hjoin : ∀ segs : List String, AreWords segs → '\n' ∉ (Text.joinPath segs).toList := by
    intro segs hsegs
    induction segs with
    | nil => decide
    | cons w more ih =>
      obtain ⟨hw, hmore⟩ := List.forall_mem_cons.mp hsegs
      cases more with
      | nil => simpa [Text.joinPath] using newline_notMem_word hw
      | cons next more =>
        rw [Text.joinPath_cons (by simp)]
        simpa [newline_notMem_word hw] using ih hmore
  have hsegments := hjoin _ h.1
  rwa [Text.joinPath_segments] at hsegments

theorem isItemsCode_root (h : n.IsWritten) (hi : Interface.IsWritten i) :
    IsItemsCode 2 (n.typeCode ((i.traits.head?.map (·.path)).getD i.name)) := by
  refine isItemsCode_type h ?_
  cases htraits : i.traits with
  | nil => exact newline_notMem_word hi.name
  | cons t rest => exact newline_notMem_path (hi.traits t (htraits ▸ List.mem_cons_self)).path

/-- The text of a mock is read as items if no helper gets its name from one that a mark lets be a keyword. -/
theorem isItemsCode_code (h : n.IsWritten) (hi : Interface.IsWritten i) {onHelpers : Bool}
    (hplain : onHelpers = true → ∀ m ∈ i.methods, IsPlain m.name.toList) : IsItemsCode 7 (n.code i onHelpers) := by
  have hown : ∀ m ∈ if onHelpers then i.methods else [], Method.IsWritten m ∧ IsPlain m.name.toList := by
    cases onHelpers with
    | false => simp
    | true => exact fun m hm => ⟨hi.methods m hm, hplain rfl m hm⟩
  have htype := (isItemsCode_root h hi).mono (show 2 ≤ 7 by decide)
  have himpls : IsItemsCode 7 (i.traits.flatMap n.implCode) := .flatMap fun t ht => isItemsCode_impl h (hi.traits t ht)
  exact ((htype.append (isItemsCode_own h hown)).append (isItemsCode_debug h)).append himpls

private theorem exists_prints_flatMap {α : Type} {f : α → List Code} {xs : List α} (h : ∀ x ∈ xs, ∃ ss, Prints (f x) ss) :
    ∃ ss, Prints (xs.flatMap f) ss := by
  induction xs with
  | nil => exact ⟨[], Code.prints_nil⟩
  | cons x rest ih =>
    obtain ⟨⟨ss, hss⟩, hrest⟩ := List.forall_mem_cons.mp h
    obtain ⟨us, hus⟩ := ih hrest
    exact ⟨ss ++ us, hss.append hus⟩

private theorem exists_prints_helper {m : Method} (h : Method.IsWritten m) :
    ∃ ss, Prints (Helper.ofMethod (withFreshNames m)).code ss := by
  have hwritten := isWritten_ofMethod (isWritten_withFreshNames h)
  by_cases hplain : IsPlain (Helper.ofMethod (withFreshNames m)).method.toList
  · obtain ⟨items, hprints, -⟩ := isItemsCode_helper hwritten hplain
    exact ⟨_, hprints⟩
  · obtain ⟨us, hprints⟩ := exists_rawHelper hwritten hplain
    exact ⟨_, hprints⟩

private theorem exists_rawOwn (h : n.IsWritten) {ms : List Method} (hms : ∀ m ∈ ms, Method.IsWritten m)
    (hraw : ∃ m ∈ ms, ¬IsPlain m.name.toList) : ∃ (items : List (List Shape)) (us : List Shape),
      Prints (n.ownCode ms) (.word "impl" :: .word n.mock :: .mark "\x7b" :: items.flatten ++ (rawHead ++ us)) ∧
        ∀ ss ∈ items, IsItem 3 ss := by
  -- the helpers in front of the first one of these are read, and the attribute of this one
  obtain ⟨m, front, back, rfl, hm, hfront⟩ : ∃ m front back, ms = front ++ m :: back ∧ ¬IsPlain m.name.toList ∧
      ∀ x ∈ front, IsPlain x.name.toList := by
    have hsome : (ms.find? fun m => !decide (IsPlain m.name.toList)).isSome := by simpa using hraw
    obtain ⟨m, hfind⟩ := Option.isSome_iff_exists.mp hsome
    obtain ⟨hm, front, back, heq, hfront⟩ := List.find?_eq_some_iff_append.mp hfind
    exact ⟨m, front, back, heq, by simpa using hm, fun x hx => by simpa using hfront x hx⟩
  obtain ⟨hfrontWritten, hrest⟩ := List.forall_mem_append.mp hms
  obtain ⟨hwritten, hback⟩ := List.forall_mem_cons.mp hrest
  have hhelpers : IsItemsCode 3 (front.flatMap fun m => (Helper.ofMethod (withFreshNames m)).code) :=
    .flatMap fun m hm => isItemsCode_ofMethod (hfrontWritten m hm) (hfront m hm)
  obtain ⟨items, hitems, hread⟩ := (isItemsCode_new h).append hhelpers
  obtain ⟨us, hus⟩ := exists_rawHelper (isWritten_ofMethod (isWritten_withFreshNames hwritten)) (by rwa [method_ofMethod])
  obtain ⟨vs, hvs⟩ := exists_prints_flatMap fun m hm => exists_prints_helper (hback m hm)
  have hhead : Spells ("impl " ++ n.mock) [.word "impl", .word n.mock] := closes_impl.append (spells_word h.mock) fun _ _ => trivial
  have hbody := hitems.append (hus.append hvs)
  have hattribute : IsItem 3 (attributeShapes ⟨false, []⟩ "track_caller" []) :=
    ⟨by simp [attributeShapes], fun k => takes_item_attribute ⟨false, []⟩ "track_caller" .none⟩
  refine ⟨items ++ [attributeShapes ⟨false, []⟩ "track_caller" []], us ++ (vs ++ [.mark "\x7d"]), ?_, ?_⟩
  · have hall := prints_blank.append (hbody.braced hhead)
    simpa [MockNames.ownCode, rawHead] using hall
  · exact List.forall_mem_append.mpr ⟨hread, List.forall_mem_singleton.mpr hattribute⟩

/-- With a helper for a name that a mark lets be a keyword, the text of a mock has an implementation that is not
    read up to its end. -/
theorem exists_rawCode (h : n.IsWritten) (hi : Interface.IsWritten i) (hraw : ∃ m ∈ i.methods, ¬IsPlain m.name.toList) :
    ∃ (front items : List (List Shape)) (us : List Shape), Prints (n.code i true)
      (front.flatten ++ (.word "impl" :: .word n.mock :: .mark "\x7b" :: items.flatten ++ (rawHead ++ us))) ∧
        (∀ ss ∈ front, IsItem 7 ss) ∧ ∀ ss ∈ items, IsItem 3 ss := by
  obtain ⟨front, hfront, hread⟩ := (isItemsCode_root h hi).mono (show 2 ≤ 7 by decide)
  obtain ⟨items, us, hown, hitems⟩ := exists_rawOwn h hi.methods hraw
  have hbehind : IsItemsCode 7 (n.debugCode ++ i.traits.flatMap n.implCode) :=
    (isItemsCode_debug h).append (.flatMap fun t ht => isItemsCode_impl h (hi.traits t ht))
  obtain ⟨vs, hvs, -⟩ := hbehind
  have hall := hfront.append (hown.append hvs)
  refine ⟨front, items, us ++ vs.flatten, ?_, hread, hitems⟩
  simpa [MockNames.code, rawHead] using hall

end Interfaces

end TraitMock.Generation
