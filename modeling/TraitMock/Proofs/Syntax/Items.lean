import TraitMock.Proofs.Syntax.Entries
import TraitMock.Proofs.Syntax.Functions
import TraitMock.Proofs.Syntax.ImportText

namespace TraitMock.Syntax.Reader

variable {n : Nat} {ss us : List Shape}

section Functions

/-- The words with which an item begins that is read by its keyword. -/
def itemWords : List String := ["use", "mod", "struct", "enum", "union", "type", "static", "let"]

theorem item_closed : Closed (item n) := by
  rintro ts ⟨⟨kind, text, gap, commented⟩, after, rfl, rfl, hmem⟩
  obtain rfl : text = "\x7d" := by simpa using hmem
  rcases n with _ | _ | n
  · rfl
  · simp [item, visibility, keywordItem, macroCall, separated]
  · simp [item, visibility, keywordItem, macroCall, separated]

/-- An item that begins with a word is read behind its visibility. -/
theorem item_word {w gap : String} {commented : Bool} {rest mid more : List Token} {i : Item}
    (hvisibility : visibility (⟨.word, w, gap, commented⟩ :: rest) = some ((), mid))
    (hread : keywordItem n mid = some (i, more)) :
    item (n + 1) (⟨.word, w, gap, commented⟩ :: rest) = some (i, more) := by
  rw [item]
  simp [hvisibility, hread]

/-- What the items are tried as that begin with neither of the words that stand for a single kind. -/
theorem keywordItem_other {w gap : String} {commented : Bool} {rest : List Token} (hw : w ∉ itemWords) :
    keywordItem (n + 1) (⟨.word, w, gap, commented⟩ :: rest) =
      ((.trait <$> traitDecl n) <|>
        (do
          implementation n
          pure (.other "impl_item")) <|>
        (do
          let m ← function (deep (block (item n)))
          pure (.function m)) <|>
        (do
          keyword "const"
          let _ ← name
          mark ":"
          aType
          optionalValue (value n)
          pure (.other "const_item")) <|>
        (do
          keyword "extern"
          keyword "crate"
          let _ ← name
          if ← optionalKeyword "as" then
            let _ ← name
          mark ";"
          pure (.other "extern_crate_declaration")) <|>
        (do
          let _ ← optionalKeyword "unsafe"
          externModifier
          if ← optionalMark ";" then pure () else
            let _ ← itemBlock n
          pure (.other "foreign_mod_item"))) (⟨.word, w, gap, commented⟩ :: rest) := by
  simp only [itemWords, List.mem_cons, List.not_mem_nil, or_false, not_or] at hw
  rw [keywordItem]
  simp only [run_bind, run_peek, List.head?_cons, Option.bind_some]
  split
  · rename_i hkind
    exact absurd hkind (by simp)
  · split <;> simp_all

/-- The words with which the head of a function begins. -/
def headWords : List String := "fn" :: "extern" :: modifierWords

theorem exists_headWord {mods : List (List Shape)} (hmods : ∀ ss ∈ mods, IsModifier ss) {ts : List Token}
    (hfit : Fit ts (mods.flatten ++ .word "fn" :: us)) :
    ∃ w gap commented more, ts = ⟨.word, w, gap, commented⟩ :: more ∧ w ∈ headWords := by
  cases mods with
  | nil =>
    obtain ⟨gap, commented, more, rfl, -⟩ := fit_word.mp hfit
    exact ⟨_, gap, commented, more, rfl, List.mem_cons_self⟩
  | cons mod mods =>
    obtain ⟨w, vs, rfl, hw⟩ := (List.forall_mem_cons.mp hmods).1.exists_word
    obtain ⟨gap, commented, more, rfl, -⟩ := fit_word.mp hfit
    exact ⟨_, gap, commented, more, rfl, List.mem_cons_of_mem _ hw⟩

/-- The head of a function begins no trait and no implementation, also not behind the word that both may begin with. -/
theorem optionalKeyword_unsafe {mods : List (List Shape)} (hmods : ∀ ss ∈ mods, IsModifier ss) {ts : List Token}
    (hfit : Fit ts (mods.flatten ++ .word "fn" :: us)) (rest : List Token) :
    ∃ b mid, optionalKeyword "unsafe" (ts ++ rest) = some (b, mid) ∧ keyword "trait" mid = none ∧
      keyword "impl" mid = none := by
  have hwords : ∀ w ∈ headWords, w ≠ "trait" ∧ w ≠ "impl" := by decide
  obtain ⟨w, gap, commented, more, rfl, hw⟩ := exists_headWord hmods hfit
  by_cases hmark : w = "unsafe"
  · subst hmark
    obtain ⟨mod, mods, rfl⟩ : ∃ mod rest, mods = mod :: rest := by
      refine List.exists_cons_of_ne_nil fun hnil => ?_
      subst hnil
      obtain ⟨_, _, _, heq, -⟩ := fit_word.mp hfit
      simp at heq
    obtain ⟨hmod, hothers⟩ := List.forall_mem_cons.mp hmods
    obtain ⟨v, vs, rfl, -⟩ := hmod.exists_word
    obtain ⟨gap', commented', more', heq, hmore⟩ := fit_word.mp hfit
    obtain ⟨htoken, rfl⟩ := List.cons.inj heq
    obtain rfl : "unsafe" = v := congrArg Token.text htoken
    obtain rfl : vs = [] := by
      generalize hshapes : Shape.word "unsafe" :: vs = mod at hmod
      cases hmod <;> simp_all [Shape.word]
    obtain ⟨w, gap, commented, after, rfl, hw⟩ := exists_headWord hothers hmore
    exact ⟨true, ⟨.word, w, gap, commented⟩ :: (after ++ rest), by simp, by simp [hwords w hw], by simp [hwords w hw]⟩
  · exact ⟨false, ⟨.word, w, gap, commented⟩ :: (more ++ rest), by simp [hmark], by simp [hwords w hw],
      by simp [hwords w hw]⟩

private theorem keywordItem_function {f : FunctionShapes} (h : f.IsRead) (hbody : IsBody ss) :
    Takes (keywordItem (n + 2)) (f.shapes ++ blockShapes ss) fun _ => True := by
  intro ts rest hfit _
  have hblock : Takes (deep (block (item (n + 1)))) (blockShapes ss) fun _ => True := by
    intro ts rest hfit _
    refine takes_block item_closed hbody ?_ ts rest hfit trivial
    rw [depth, List.length_append, hfit.length_eq]
    omega
  obtain ⟨m, hread⟩ := takes_function h hblock ts rest hfit trivial
  obtain ⟨head, tail, hhead, -, rfl⟩ := fit_append.mp hfit
  obtain ⟨b, mid, hmark, htrait, himpl⟩ := optionalKeyword_unsafe h.modifiers hhead (tail ++ rest)
  obtain ⟨w, gap, commented, more, rfl, hw⟩ := exists_headWord h.modifiers hhead
  have hother : ∀ w ∈ headWords, w ∉ itemWords := by decide
  refine ⟨.function m, ?_⟩
  rw [List.append_assoc] at hread ⊢
  rw [List.cons_append] at hread hmark ⊢
  rw [keywordItem_other (hother w hw)]
  simp [traitDecl, implementation, hmark, htrait, himpl, hread]

/-- Nothing, or the word that lets everyone see an item. -/
inductive IsPublic : List Shape → Prop where
  | none : IsPublic []
  | word : IsPublic [.word "pub"]

theorem visibility_public {visible : List Shape} (h : IsPublic visible) {ts : List Token} (hfit : Fit ts visible)
    {w gap : String} {commented : Bool} {rest : List Token} (hw : w ≠ "pub") :
    visibility (ts ++ ⟨.word, w, gap, commented⟩ :: rest) = some ((), ⟨.word, w, gap, commented⟩ :: rest) := by
  cases h with
  | none =>
    rw [fit_nil.mp hfit]
    simp [visibility, hw]
  | word =>
    obtain ⟨gap', commented', us, rfl, hus⟩ := fit_word.mp hfit
    rw [fit_nil.mp hus]
    simp [visibility]

/-- An item behind its visibility. -/
theorem takes_item_visible {visible : List Shape} (hvisible : IsPublic visible)
    (hread : Takes (keywordItem n) us fun _ => True)
    (hstart : ∀ ts, Fit ts us → ∃ w gap commented more, ts = ⟨.word, w, gap, commented⟩ :: more ∧ w ≠ "pub") :
    Takes (item (n + 1)) (visible ++ us) fun _ => True := by
  intro ts rest hfit _
  obtain ⟨front, back, hfront, hback, rfl⟩ := fit_append.mp hfit
  obtain ⟨i, hi⟩ := hread back rest hback trivial
  obtain ⟨w, gap, commented, more, rfl, hw⟩ := hstart back hback
  have hvisibility : visibility (front ++ ⟨.word, w, gap, commented⟩ :: (more ++ rest)) = some ((), _) :=
    visibility_public hvisible hfront hw
  refine ⟨i, ?_⟩
  rw [List.append_assoc, List.cons_append]
  rw [List.cons_append] at hi
  cases hvisible with
  | none =>
    rw [fit_nil.mp hfront] at hvisibility ⊢
    exact item_word hvisibility hi
  | word =>
    obtain ⟨gap', commented', vs, rfl, -⟩ := fit_word.mp hfront
    exact item_word hvisibility hi

theorem takes_item_function {visible : List Shape} (hvisible : IsPublic visible) {f : FunctionShapes} (h : f.IsRead)
    (hbody : IsBody ss) : Takes (item (n + 3)) (visible ++ (f.shapes ++ blockShapes ss)) fun _ => True := by
  have hpub : ∀ w ∈ headWords, w ≠ "pub" := by decide
  refine takes_item_visible hvisible (keywordItem_function h hbody) fun ts hfit => ?_
  obtain ⟨head, tail, hhead, -, rfl⟩ := fit_append.mp hfit
  obtain ⟨w, gap, commented, more, rfl, hw⟩ := exists_headWord h.modifiers hhead
  exact ⟨w, gap, commented, more ++ tail, rfl, hpub w hw⟩

end Functions

section Attributes

/-- Nothing, or the group of an attribute. -/
inductive IsAttributeGroup : List Shape → Prop where
  | none : IsAttributeGroup []
  | group {o c : String} {inner : List Shape} (hclose : closing? o = some c) (hinner : Balanced inner) :
    IsAttributeGroup (.mark o :: (inner ++ [.mark c]))

/-- An attribute. -/
def attributeShapes (front : ImportPath) (name : String) (args : List Shape) : List Shape :=
  [.mark "#", .mark "["] ++ ((front.leading ++ [.word name]) ++ (args ++ [.mark "]"]))

private theorem takes_attribute (front : ImportPath) (name : String) (h : IsAttributeGroup ss) :
    Takes outerAttribute (attributeShapes front name ss) fun _ => True := by
  intro ts rest hfit _
  obtain ⟨opening, tail, hopening, htail, rfl⟩ := fit_append.mp hfit
  obtain ⟨path, back, hpath, hback, rfl⟩ := fit_append.mp htail
  obtain ⟨args, closing, hargs, hclosing, rfl⟩ := fit_append.mp hback
  have hwritten : IsArguments args := by
    cases h with
    | none =>
      rw [fit_nil.mp hargs]
      exact .none
    | group hclose hinner => exact .group hclose hinner hargs
  exact ⟨_, outerAttribute_written ⟨opening, path, args, closing, front, name, hopening, hpath, hwritten, hclosing⟩ rest⟩

theorem takes_item_attribute (front : ImportPath) (name : String) (h : IsAttributeGroup ss) :
    Takes (item (n + 1)) (attributeShapes front name ss) fun _ => True := by
  intro ts rest hfit _
  obtain ⟨text, hread⟩ := takes_attribute front name h ts rest hfit trivial
  obtain ⟨gap, commented, us, rfl, -⟩ := fit_mark.mp hfit
  refine ⟨.attribute text, ?_⟩
  rw [item]
  rw [List.cons_append] at hread ⊢
  simp [hread]

end Attributes

section Implementations

/-- The trait that an implementation is of, with the word behind it, or nothing. -/
inductive IsImplemented : List Shape → Prop where
  | none : IsImplemented []
  | trait {segs : List String} (h : IsTypePath segs) : IsImplemented (pathShapes segs ++ [.word "for"])

/-- An implementation. -/
def implShapes (isUnsafe : Bool) (trait : List Shape) (target : String) (items : List (List Shape)) : List Shape :=
  (if isUnsafe then [.word "unsafe"] else []) ++
    .word "impl" :: (trait ++ (.word target :: .mark "\x7b" :: (items.flatten ++ [.mark "\x7d"])))

/-- Items in braces. -/
theorem takes_itemBlock {items : List (List Shape)}
    (hitems : ∀ us ∈ items, us ≠ [] ∧ Takes (item n) us fun _ => True) :
    Takes (itemBlock (n + 1)) (.mark "\x7b" :: (items.flatten ++ [.mark "\x7d"])) fun _ => True := by
  intro ts rest hfit _
  obtain ⟨gap, commented, us, rfl, hus⟩ := fit_mark.mp hfit
  obtain ⟨inner, close, hinner, hclose, rfl⟩ := fit_append.mp hus
  obtain ⟨gap', commented', vs, rfl, hvs⟩ := fit_mark.mp hclose
  obtain rfl := fit_nil.mp hvs
  have hmany := takes_many (p := fun _ => True) fun us hus => ⟨(hitems us hus).1, (hitems us hus).2, fun _ _ _ => trivial⟩
  obtain ⟨is, his⟩ := hmany inner (⟨.mark, "\x7d", gap', commented'⟩ :: rest) hinner
    ⟨trivial, item_closed _ ⟨_, _, rfl, rfl, by simp⟩⟩
  refine ⟨is, ?_⟩
  rw [itemBlock]
  simp only [List.cons_append, List.append_assoc, List.nil_append]
  simp [his, -run_many]

/-- An implementation is read up to its end. -/
theorem takes_implementation {isUnsafe : Bool} {trait : List Shape} (htrait : IsImplemented trait) {target : String}
    (htarget : IsTypePath [target]) {items : List (List Shape)}
    (hitems : ∀ us ∈ items, us ≠ [] ∧ Takes (item n) us fun _ => True) :
    Takes (implementation (n + 2)) (implShapes isUnsafe trait target items) fun _ => True := by
  intro ts rest hfit _
  obtain ⟨start, tail, hstart, htail, rfl⟩ := fit_append.mp hfit
  obtain ⟨gap, commented, us, rfl, hus⟩ := fit_word.mp htail
  obtain ⟨front, back, hfront, hback, rfl⟩ := fit_append.mp hus
  obtain ⟨gap', commented', block, rfl, hblock⟩ := fit_word.mp hback
  have hopen : Starts ["\x7b"] (block ++ rest) := starts_of_fit (s := .mark "\x7b") rfl rfl (by simp [Shape.mark]) hblock rest
  obtain ⟨is, his⟩ := takes_itemBlock hitems block rest hblock trivial
  obtain ⟨t, ht⟩ := (isType_path htarget).takes_type [⟨.word, target, gap', commented'⟩] (block ++ rest)
    (fit_word.mpr ⟨_, _, [], rfl, fit_nil.mpr rfl⟩) (hopen.ends (by decide))
  obtain ⟨clause, hclause⟩ := takes_clause .nil [] (block ++ rest) (fit_nil.mpr rfl) hopen
  have hsemicolon : Clear [";"] (block ++ rest) := hopen.clear (by decide)
  have hfor : optionalKeyword "for" (block ++ rest) = some (false, block ++ rest) := by
    obtain ⟨t, after, heq, hkind, -⟩ := hopen
    simp [heq, hkind]
  rw [List.cons_append, List.nil_append] at ht
  rw [List.nil_append] at hclause
  have hmark (more : List Token) : ∃ b, optionalKeyword "unsafe" (start ++ ⟨.word, "impl", gap, commented⟩ :: more) =
      some (b, ⟨.word, "impl", gap, commented⟩ :: more) := by
    cases isUnsafe with
    | false =>
      rw [fit_nil.mp hstart]
      exact ⟨false, by simp⟩
    | true =>
      obtain ⟨gap', commented', vs, rfl, hvs⟩ := fit_word.mp hstart
      rw [fit_nil.mp hvs]
      exact ⟨true, by simp⟩
  refine ⟨(), ?_⟩
  rw [implementation, List.append_assoc]
  obtain ⟨b, hb⟩ := hmark (front ++ ⟨.word, target, gap', commented'⟩ :: (block ++ rest))
  simp only [List.cons_append, List.append_assoc, run_bind, hb, Option.bind_some, run_keyword, beq_self_eq_true,
    Bool.and_self, if_true]
  cases htrait with
  | none =>
    rw [fit_nil.mp hfront]
    simp [optionalGenerics, aType, ht, hfor, hclause, hsemicolon.optionalMark (m := ";") (by simp), his]
  | @trait segs h =>
    obtain ⟨path, word, hpath, hword, rfl⟩ := fit_append.mp hfront
    obtain ⟨gap₁, commented₁, vs, rfl, hvs⟩ := fit_word.mp hword
    obtain rfl := fit_nil.mp hvs
    have hends : Ends sumMarks (⟨.word, "for", gap₁, commented₁⟩ :: ⟨.word, target, gap', commented'⟩ :: (block ++ rest)) := by
      intro t ht
      obtain rfl : _ = t := by simpa using ht
      exact .inr ⟨rfl, List.mem_cons_of_mem _ List.mem_cons_self⟩
    obtain ⟨u, hu⟩ := (isType_path h).takes_type path _ hpath hends
    obtain ⟨first, more, rfl⟩ := List.exists_cons_of_ne_nil h.ne_nil
    obtain ⟨gap₂, commented₂, vs, rfl, -⟩ := fit_word.mp hpath
    simp only [List.append_assoc, List.cons_append, List.nil_append] at hu ⊢
    simp [optionalGenerics, aType, hu, ht, hclause, hsemicolon.optionalMark (m := ";") (by simp), his]

theorem takes_item_implementation {isUnsafe : Bool} {trait : List Shape} (htrait : IsImplemented trait) {target : String}
    (htarget : IsTypePath [target]) {items : List (List Shape)}
    (hitems : ∀ us ∈ items, us ≠ [] ∧ Takes (item n) us fun _ => True) :
    Takes (item (n + 4)) (implShapes isUnsafe trait target items) fun _ => True := by
  have hfirst : ∀ ts, Fit ts (implShapes isUnsafe trait target items) → ∃ w gap commented more,
      ts = ⟨.word, w, gap, commented⟩ :: more ∧ (w = "unsafe" ∨ w = "impl") := by
    intro ts hfit
    cases isUnsafe with
    | false =>
      obtain ⟨gap, commented, us, rfl, -⟩ := fit_word.mp hfit
      exact ⟨_, gap, commented, us, rfl, .inr rfl⟩
    | true =>
      obtain ⟨gap, commented, us, rfl, -⟩ := fit_word.mp hfit
      exact ⟨_, gap, commented, us, rfl, .inl rfl⟩
  suffices hvisible : Takes (item (n + 4)) ([] ++ implShapes isUnsafe trait target items) fun _ => True from hvisible
  refine takes_item_visible .none (fun ts rest hfit _ => ?_) fun ts hfit => ?_
  · obtain ⟨_, hread⟩ := takes_implementation htrait htarget hitems ts rest hfit trivial
    refine ⟨.other "impl_item", ?_⟩
    have htrait : ∃ b mid, optionalKeyword "unsafe" (ts ++ rest) = some (b, mid) ∧ keyword "trait" mid = none := by
      cases isUnsafe with
      | false =>
        obtain ⟨gap, commented, us, rfl, -⟩ := fit_word.mp hfit
        exact ⟨false, ⟨.word, "impl", gap, commented⟩ :: (us ++ rest), by simp, by simp⟩
      | true =>
        obtain ⟨gap, commented, us, rfl, hus⟩ := fit_word.mp hfit
        obtain ⟨gap', commented', vs, rfl, -⟩ := fit_word.mp hus
        exact ⟨true, ⟨.word, "impl", gap', commented'⟩ :: (vs ++ rest), by simp, by simp⟩
    obtain ⟨b, mid, hmark, htrait⟩ := htrait
    obtain ⟨w, gap, commented, more, rfl, hw⟩ := hfirst ts hfit
    rw [List.cons_append] at hread hmark ⊢
    rw [keywordItem_other (by rcases hw with rfl | rfl <;> decide)]
    simp [traitDecl, hmark, htrait, hread]
  · obtain ⟨w, gap, commented, more, rfl, hw⟩ := hfirst ts hfit
    exact ⟨w, gap, commented, more, rfl, by rcases hw with rfl | rfl <;> decide⟩

end Implementations

section Structures

/-- Shapes that are read as a field with a name. -/
inductive IsNamedField : List Shape → Prop where
  | field {visible ss : List Shape} (hvisible : IsPublic visible) {x : String} (hx : x ≠ "pub") (h : IsType ss) :
    IsNamedField (visible ++ .word x :: .mark ":" :: ss)

private theorem takes_namedField (h : IsNamedField ss) : Takes namedField ss (Starts [",", "\x7d"]) := by
  intro ts rest hfit hrest
  obtain ⟨hvisible, hx, htype⟩ := h
  rename_i visible us x
  obtain ⟨front, back, hfront, hback, rfl⟩ := fit_append.mp hfit
  obtain ⟨gap, commented, vs, rfl, hvs⟩ := fit_word.mp hback
  obtain ⟨gap', commented', xs, rfl, hxs⟩ := fit_mark.mp hvs
  obtain ⟨t, ht⟩ := htype.takes_type xs rest hxs (hrest.ends (by decide))
  have hvisibility : visibility (front ++ ⟨.word, x, gap, commented⟩ :: ⟨.mark, ":", gap', commented'⟩ :: (xs ++ rest)) =
      some ((), _) := visibility_public hvisible hfront hx
  have hattributes : repeated outerAttribute (front ++ ⟨.word, x, gap, commented⟩ :: ⟨.mark, ":", gap', commented'⟩ ::
      (xs ++ rest)) = ([], front ++ ⟨.word, x, gap, commented⟩ :: ⟨.mark, ":", gap', commented'⟩ :: (xs ++ rest)) := by
    refine repeated_none ?_
    cases hvisible with
    | none =>
      rw [fit_nil.mp hfront]
      exact outerAttribute_eq_none (by simp) _
    | word =>
      obtain ⟨gap, commented, us, rfl, -⟩ := fit_word.mp hfront
      exact outerAttribute_eq_none (by simp) _
  refine ⟨(), ?_⟩
  simp only [List.append_assoc, List.cons_append]
  simp [namedField, hattributes, hvisibility, aType, ht]

private theorem namedField_closed {ts : List Token} (h : Starts ["\x7d"] ts) : namedField ts = none := by
  obtain ⟨⟨kind, text, gap, commented⟩, after, rfl, rfl, hmem⟩ := h
  obtain rfl : text = "\x7d" := by simpa using hmem
  have hattributes := repeated_none (outerAttribute_eq_none (t := ⟨.mark, "\x7d", gap, commented⟩) (by simp) after)
  simp [namedField, hattributes, visibility]

/-- A structure with a comma behind each field. -/
def structShapes (name : String) (fields : List (List Shape)) : List Shape :=
  .word "struct" :: .word name :: .mark "\x7b" :: (separatedBy (.mark ",") fields ++ [.mark ",", .mark "\x7d"])

theorem takes_item_struct {visible : List Shape} (hvisible : IsPublic visible) (name : String) {fields : List (List Shape)}
    (hne : fields ≠ []) (hfields : ∀ us ∈ fields, IsNamedField us) :
    Takes (item (n + 2)) (visible ++ structShapes name fields) fun _ => True := by
  refine takes_item_visible hvisible (fun ts rest hfit _ => ?_) fun ts hfit => ?_
  · obtain ⟨gap, commented, us, rfl, hus⟩ := fit_word.mp hfit
    obtain ⟨gap', commented', vs, rfl, hvs⟩ := fit_word.mp hus
    obtain ⟨gap'', commented'', xs, rfl, hxs⟩ := fit_mark.mp hvs
    have hlist : Takes (listed "\x7d" namedField) (separatedBy (.mark ",") fields ++ ([.mark ","] ++ [.mark "\x7d"])) fun _ => True :=
      takes_listed [.mark ","] (fun us hus => takes_namedField (hfields us hus)) (by decide) (.inr ⟨hne, rfl⟩)
        fun ts hts => namedField_closed hts
    obtain ⟨fs, hfs⟩ := hlist xs rest hxs trivial
    refine ⟨.dataType "struct_item" name, ?_⟩
    rw [keywordItem]
    simp [structDecl, optionalGenerics, optionalWhere, plainFields, namedFields, hfs]
  · obtain ⟨gap, commented, us, rfl, -⟩ := fit_word.mp hfit
    exact ⟨_, gap, commented, us, rfl, by decide⟩

end Structures

section Broken

variable {w gap : String} {commented : Bool} {rest : List Token}

theorem traitDecl_other (hw : w ∉ ["unsafe", "trait"]) : traitDecl n (⟨.word, w, gap, commented⟩ :: rest) = none := by
  simp only [List.mem_cons, List.not_mem_nil, or_false, not_or] at hw
  cases n with
  | zero => rfl
  | succ n => simp [traitDecl, hw]

private theorem implementation_other (hw : w ∉ ["unsafe", "impl"]) :
    implementation n (⟨.word, w, gap, commented⟩ :: rest) = none := by
  simp only [List.mem_cons, List.not_mem_nil, or_false, not_or] at hw
  cases n with
  | zero => rfl
  | succ n => simp [implementation, hw]

theorem modifiers_other (hw : w ∉ "extern" :: modifierWords) : modifiers (⟨.word, w, gap, commented⟩ :: rest) = none := by
  simp only [List.mem_cons, not_or] at hw
  simp [modifiers, modifier, externModifier, hw.1, hw.2]

/-- A function whose name does not stand in front of its parameters is no item. -/
theorem item_brokenFunction {ts : List Token} {x : String} (hfit : Fit ts [.word "pub", .word "fn", .word x, .mark "#"]) :
    item n (ts ++ rest) = none := by
  obtain ⟨gap₁, commented₁, us, rfl, hus⟩ := fit_word.mp hfit
  obtain ⟨gap₂, commented₂, vs, rfl, hvs⟩ := fit_word.mp hus
  obtain ⟨gap₃, commented₃, ws, rfl, hws⟩ := fit_word.mp hvs
  obtain ⟨gap₄, commented₄, xs, rfl, hxs⟩ := fit_mark.mp hws
  obtain rfl := fit_nil.mp hxs
  have hkeyword : keywordItem (n - 1) (⟨.word, "fn", gap₂, commented₂⟩ :: ⟨.word, x, gap₃, commented₃⟩ ::
      ⟨.mark, "#", gap₄, commented₄⟩ :: rest) = none := by
    generalize n - 1 = k
    cases k with
    | zero => rfl
    | succ k =>
      rw [keywordItem_other (by decide)]
      simp [traitDecl_other, implementation_other, modifiers_other, modifierWords, function, optionalGenerics, externModifier]
  cases n with
  | zero => rfl
  | succ n =>
    rw [Nat.add_sub_cancel] at hkeyword
    rw [item]
    simp [visibility, hkeyword, macroCall, separated, repeated_none]

/-- Items in braces are not read if something stands among them that is no item. -/
theorem itemBlock_broken {items : List (List Shape)} (hitems : ∀ us ∈ items, us ≠ [] ∧ Takes (item n) us fun _ => True)
    {ts : List Token} (hfit : Fit ts (.mark "\x7b" :: items.flatten)) (hitem : item n rest = none)
    (hclose : mark "\x7d" rest = none) : itemBlock (n + 1) (ts ++ rest) = none := by
  obtain ⟨gap, commented, inner, rfl, hinner⟩ := fit_mark.mp hfit
  have hmany := takes_many (p := fun _ => True) fun us hus => ⟨(hitems us hus).1, (hitems us hus).2, fun _ _ _ => trivial⟩
  obtain ⟨is, his⟩ := hmany inner rest hinner ⟨trivial, hitem⟩
  rw [itemBlock]
  simp only [List.cons_append]
  simp [his, hclose, -run_many]

/-- No expression begins with the word of an implementation. -/
theorem expression_impl {α : Type} {r : Reader α} {p : Place} :
    expression r n p (⟨.word, "impl", gap, commented⟩ :: rest) = none := by
  have hstart : startsBlock (⟨.word, "impl", gap, commented⟩ :: rest) = false := by simp [startsBlock]
  have hpath (m : Nat) : pathOperand r m p (⟨.word, "impl", gap, commented⟩ :: rest) = none := by
    cases m with
    | zero => rfl
    | succ m => simp [pathOperand, expressionPath, reservedWords]
  have hprimary (m : Nat) : primary r m p (⟨.word, "impl", gap, commented⟩ :: rest) = none := by
    cases m with
    | zero => rfl
    | succ m => simp [primary, isBlockLike, hstart, hpath]
  have hsign : sign (⟨.word, "impl", gap, commented⟩ :: rest) = none := by simp [sign]
  have hoperand (m : Nat) : operandOf r m p (⟨.word, "impl", gap, commented⟩ :: rest) = none := by
    cases m with
    | zero => rfl
    | succ m => simp [operandOf, repeated_none hsign, isOpen, hprimary]
  cases n with
  | zero => rfl
  | succ n => simp [expression, rangeDots, hoperand]

/-- An implementation with something among its items that is no item is no entry of a file. -/
theorem entry_brokenImplementation {k : Nat} (hk : k ≤ 5) {target : String} (htarget : IsTypePath [target])
    {items : List (List Shape)} (hitems : ∀ us ∈ items, us ≠ [] ∧ ∀ m, Takes (item (m + k)) us fun _ => True)
    {ts : List Token} (hfit : Fit ts (.word "impl" :: .word target :: .mark "\x7b" :: items.flatten))
    (hitem : ∀ m, item m rest = none) (hclose : mark "\x7d" rest = none) : entry (ts ++ rest) = none := by
  obtain ⟨gap₁, commented₁, us, rfl, hus⟩ := fit_word.mp hfit
  obtain ⟨gap₂, commented₂, block, rfl, hblock⟩ := fit_word.mp hus
  have hopen : Starts ["\x7b"] (block ++ rest) := starts_of_fit (s := .mark "\x7b") rfl rfl (by simp [Shape.mark]) hblock rest
  obtain ⟨t, ht⟩ := (isType_path htarget).takes_type [⟨.word, target, gap₂, commented₂⟩] (block ++ rest)
    (fit_word.mpr ⟨_, _, [], rfl, fit_nil.mpr rfl⟩) (hopen.ends (by decide))
  obtain ⟨clause, hclause⟩ := takes_clause .nil [] (block ++ rest) (fit_nil.mpr rfl) hopen
  have hsemicolon : Clear [";"] (block ++ rest) := hopen.clear (by decide)
  have hfor : optionalKeyword "for" (block ++ rest) = some (false, block ++ rest) := by
    obtain ⟨t, after, heq, hkind, -⟩ := hopen
    simp [heq, hkind]
  rw [List.cons_append, List.nil_append] at ht
  rw [List.nil_append] at hclause
  have himplementation (m : Nat) : implementation (m + k + 2)
      (⟨.word, "impl", gap₁, commented₁⟩ :: ⟨.word, target, gap₂, commented₂⟩ :: (block ++ rest)) = none := by
    have hnone := itemBlock_broken (n := m + k) (fun us hus => ⟨(hitems us hus).1, (hitems us hus).2 m⟩) hblock (hitem _) hclose
    rw [implementation]
    simp [optionalGenerics, aType, ht, hfor, hclause, hsemicolon.optionalMark (m := ";") (by simp), hnone]
  have hkeyword (m : Nat) : keywordItem (m + k + 3)
      (⟨.word, "impl", gap₁, commented₁⟩ :: ⟨.word, target, gap₂, commented₂⟩ :: (block ++ rest)) = none := by
    rw [keywordItem_other (by decide)]
    simp [traitDecl_other, himplementation, modifiers_other, modifierWords, function, externModifier]
  obtain ⟨m, hm⟩ := Nat.exists_eq_add_of_le' (show k + 4 ≤ depth
    (⟨.word, "impl", gap₁, commented₁⟩ :: ⟨.word, target, gap₂, commented₂⟩ :: (block ++ rest)) by rw [depth]; omega)
  have hdeep : deep item (⟨.word, "impl", gap₁, commented₁⟩ :: ⟨.word, target, gap₂, commented₂⟩ :: (block ++ rest)) = none := by
    rw [deep, hm, ← Nat.add_assoc, item]
    simp [visibility, hkeyword, macroCall, separated, repeated_none]
  have hloose : looseExpression (⟨.word, "impl", gap₁, commented₁⟩ :: ⟨.word, target, gap₂, commented₂⟩ :: (block ++ rest)) = none := by
    simp [looseExpression, isBlockLike, startsBlock, deep, expression_impl]
  rw [List.cons_append, List.cons_append]
  simp [entry, hdeep, hloose]

end Broken
section Entries

theorem takes_entry_decl {t : ImportExpr} (h : t.IsValid []) : Takes entry t.declShapes fun _ => True := by
  intro ts rest hfit _
  obtain ⟨commented, hread⟩ := entry_written rest h (declWritten_of_fit hfit)
  exact ⟨_, hread⟩

/-- What is read as an item is read as an entry of a file. -/
theorem takes_entry {k : Nat} (hk : k ≤ 10) (h : ∀ n, Takes (item (n + k)) ss fun _ => True) :
    Takes entry ss fun _ => True := by
  intro ts rest hfit _
  obtain ⟨n, hn⟩ := Nat.exists_eq_add_of_le' (show k ≤ depth (ts ++ rest) by rw [depth]; omega)
  obtain ⟨i, hi⟩ := h n ts rest hfit trivial
  have hdeep : deep item (ts ++ rest) = some (i, rest) := by rw [deep, hn, hi]
  exact ⟨⟨_, i⟩, by simp [entry, hdeep]; rfl⟩

/-- Entries one after the other are a file. -/
theorem exists_parse {source : String} {items : List (List Shape)} (hsource : Closes source items.flatten)
    (hskip : skipInterpreter source.toList = source.toList)
    (hitems : ∀ us ∈ items, us ≠ [] ∧ Takes entry us fun _ => True) : (parse source).isSome := by
  obtain ⟨ts, htokens, hfit⟩ := tokens_of_closes hsource hskip
  have hmany := takes_many (r := entry) (p := fun _ => True) fun us hus => ⟨(hitems us hus).1, (hitems us hus).2, fun _ _ _ => trivial⟩
  obtain ⟨es, hes⟩ := hmany ts [] hfit ⟨trivial, entry_nil⟩
  have hrepeated : repeated entry ts = (es, []) := by simpa using hes
  simp [parse, htokens, file, hrepeated, atEnd]

end Entries

end TraitMock.Syntax.Reader
