import TraitMock.Proofs.Syntax.ImportFiles
import TraitMock.Proofs.Syntax.Trees

namespace TraitMock.Syntax

section Written

/-- What may stand behind the path of an attribute: nothing, a value behind an equals sign, or a group. -/
inductive IsArguments : List Token → Prop where
  | none : IsArguments []
  | value {sign ts : List Token} {ss : List Shape} (hsign : Fit sign [.mark "="]) (hts : Fit ts ss)
    (hbalanced : Balanced ss) (hne : ss ≠ []) : IsArguments (sign ++ ts)
  | group {o c : String} {ts : List Token} {inner : List Shape} (hclose : Reader.closing? o = some c)
    (hinner : Balanced inner) (hts : Fit ts (.mark o :: (inner ++ [.mark c]))) : IsArguments ts

/-- An attribute as it is written. -/
structure WrittenAttribute where
  opening : List Token
  path : List Token
  arguments : List Token
  closing : List Token
  /-- The path in front of its last name. -/
  front : ImportPath
  name : String
  fit_opening : Fit opening [.mark "#", .mark "["]
  fit_path : Fit path (front.leading ++ [.word name])
  isArguments : IsArguments arguments
  fit_closing : Fit closing [.mark "]"]

namespace WrittenAttribute

def tokens (a : WrittenAttribute) : List Token := a.opening ++ (a.path ++ (a.arguments ++ a.closing))

def text (a : WrittenAttribute) : String := verbatim a.tokens

/-- Whether a comment stands in front of the attribute. -/
def isCommented (a : WrittenAttribute) : Bool := (a.opening.head?.map (·.commented)).getD false

def entry (a : WrittenAttribute) : Entry := ⟨a.isCommented, .attribute a.text⟩

theorem exists_tokens (a : WrittenAttribute) : ∃ gap more, a.tokens = ⟨.mark, "#", gap, a.isCommented⟩ :: more := by
  obtain ⟨gap, commented, us, hopening, -⟩ := fit_mark.mp a.fit_opening
  refine ⟨gap, us ++ (a.path ++ (a.arguments ++ a.closing)), ?_⟩
  rw [tokens, isCommented, hopening]
  rfl

end WrittenAttribute

end Written

namespace Reader

/-- Reads the path of an attribute. -/
def attributePath : Reader Unit := do
  let _ ← optionalMark "::"
  let _ ← separated "::" name

/-- Reads what stands behind the path of an attribute. -/
def attributeArguments : Reader Unit := do
  if ← optionalMark "=" then trees []
  else
    let _ ← optional anyGroup

/-- An attribute is read part by part. -/
theorem run_outerAttribute (ts : List Token) :
    outerAttribute ts = writtenText (do
      mark "#"
      mark "["
      attributePath
      attributeArguments
      mark "]") ts := by
  have hpart (b : Bool) (us : List Token) :
      (if b then (do trees []; mark "]") else (do let _ ← optional anyGroup; mark "]") : Reader Unit) us =
        ((if b then trees [] else (do let _ ← optional anyGroup) : Reader Unit) us).bind fun x => mark "]" x.2 := by
    cases b with
    | true => simp
    | false => simp
  simp only [outerAttribute, run_writtenText, attributePath, attributeArguments, run_bind, run_pure, Option.bind_assoc,
    Option.bind_some, hpart]

section Accepting

/-- What stands behind the path of an attribute begins with a mark. -/
theorem starts_arguments {ts : List Token} (h : IsArguments ts) : ts = [] ∨ Starts ["=", "(", "[", "\x7b"] ts := by
  cases h with
  | none => exact .inl rfl
  | value hsign =>
    obtain ⟨gap, commented, us, rfl, -⟩ := fit_mark.mp hsign
    exact .inr ⟨_, _, rfl, rfl, by simp⟩
  | group hclose _ hts =>
    obtain ⟨gap, commented, us, rfl, -⟩ := fit_mark.mp hts
    refine .inr ⟨_, _, rfl, rfl, ?_⟩
    rcases closing?_cases hclose with ⟨rfl, -⟩ | ⟨rfl, -⟩ | ⟨rfl, -⟩ <;> simp

private theorem clear_arguments {ts rest : List Token} (h : IsArguments ts) (hrest : Starts ["]"] rest) :
    Clear ["::"] (ts ++ rest) := by
  rcases starts_arguments h with rfl | ⟨t, more, rfl, hkind, hmem⟩
  · exact hrest.clear (by decide)
  · have hstarts : Starts ["=", "(", "[", "\x7b"] (t :: more ++ rest) := ⟨t, more ++ rest, rfl, hkind, hmem⟩
    exact hstarts.clear (by decide)

/-- What stands behind the path of an attribute is read up to the bracket that closes it. -/
theorem arguments_written {ts rest : List Token} (h : IsArguments ts) (hrest : Starts ["]"] rest) :
    attributeArguments (ts ++ rest) = some ((), rest) := by
  unfold attributeArguments
  cases h with
  | none =>
    obtain ⟨⟨kind, text, gap, commented⟩, after, rfl, hkind, hmem⟩ := hrest
    obtain rfl : kind = .mark := hkind
    obtain rfl : text = "]" := List.mem_singleton.mp hmem
    simp [anyGroup, group]
  | @value sign ts ss hsign hts hbalanced hne =>
    obtain ⟨gap, commented, us, rfl, hus⟩ := fit_mark.mp hsign
    obtain rfl := fit_nil.mp hus
    obtain ⟨u, hread⟩ := takes_trees hbalanced hne ts rest hts (hrest.mono (by decide))
    simp [hread]
  | @group o c ts inner hclose hinner hts =>
    obtain ⟨u, hread⟩ := takes_anyGroup hclose hinner ts rest hts trivial
    obtain ⟨gap, commented, us, rfl, -⟩ := fit_mark.mp hts
    have ho : o ≠ "=" := by
      rintro rfl
      cases hclose
    rw [List.cons_append] at hread ⊢
    simp [ho, hread]

/-- The path of an attribute is read up to what stands behind it. -/
theorem path_written {front : ImportPath} {name : String} {path rest : List Token}
    (hfit : Fit path (front.leading ++ [.word name])) (hrest : Clear ["::"] rest) :
    attributePath (path ++ rest) = some ((), rest) := by
  have hend : (do Reader.mark "::"; Reader.name : Reader String) rest = none := by
    simp [hrest.mark (List.mem_singleton.mpr rfl)]
  unfold ImportPath.leading at hfit
  split at hfit
  · rw [List.append_assoc, List.singleton_append] at hfit
    obtain ⟨gap, commented, us, rfl, hus⟩ := fit_mark.mp hfit
    obtain ⟨names, hnames⟩ := takes_segments front.segments name us rest hus hend
    simp [attributePath, hnames]
  · rw [List.nil_append] at hfit
    obtain ⟨names, hnames⟩ := takes_segments front.segments name path rest hfit hend
    have hclear : Clear ["::"] (path ++ rest) := clear_segments hfit rest
    have hfirst := hclear.optionalMark (List.mem_singleton.mpr rfl)
    simp [attributePath, hnames, hfirst]

theorem outerAttribute_written (a : WrittenAttribute) (rest : List Token) :
    outerAttribute (a.tokens ++ rest) = some (a.text, rest) := by
  obtain ⟨gap, commented, us, hopening, hus⟩ := fit_mark.mp a.fit_opening
  obtain ⟨gap', commented', vs, rfl, hvs⟩ := fit_mark.mp hus
  obtain rfl := fit_nil.mp hvs
  obtain ⟨gap'', commented'', ws, hclosing, hws⟩ := fit_mark.mp a.fit_closing
  obtain rfl := fit_nil.mp hws
  have hstarts : Starts ["]"] (a.closing ++ rest) := by
    rw [hclosing]
    exact ⟨_, _, rfl, rfl, List.mem_cons_self⟩
  have hclose : mark "]" (a.closing ++ rest) = some ((), rest) := by
    rw [hclosing]
    simp
  have hpath := path_written a.fit_path (clear_arguments a.isArguments hstarts)
  have harguments := arguments_written a.isArguments hstarts
  have htokens : a.tokens ++ rest = ⟨.mark, "#", gap, commented⟩ :: ⟨.mark, "[", gap', commented'⟩ ::
      (a.path ++ (a.arguments ++ (a.closing ++ rest))) := by
    rw [WrittenAttribute.tokens, hopening]
    simp
  have htake : (a.tokens ++ rest).take ((a.tokens ++ rest).length - rest.length) = a.tokens := by simp
  have hread : (do mark "#"; mark "["; attributePath; attributeArguments; mark "]" : Reader Unit) (a.tokens ++ rest) =
      some ((), rest) := by
    rw [htokens]
    simp [hpath, harguments, hclose]
  rw [run_outerAttribute, run_writtenText, hread, Option.map_some, htake]
  rfl

end Accepting

section Inversion

variable {ts rest : List Token} {u : Unit}

private theorem eq_of_attributeArguments (h : attributeArguments ts = some (u, rest)) :
    ∃ arguments, ts = arguments ++ rest ∧ IsArguments arguments := by
  rw [attributeArguments, run_bind] at h
  obtain ⟨⟨b, mid⟩, hsign, hread⟩ := Option.bind_eq_some_iff.mp h
  rcases eq_of_optionalMark hsign with ⟨rfl, gap, commented, rfl⟩ | ⟨rfl, rfl⟩
  · obtain ⟨front, ss, rfl, hfit, hbalanced, hne⟩ := eq_of_trees hread
    exact ⟨[⟨.mark, "=", gap, commented⟩] ++ front, rfl,
      .value (fit_mark.mpr ⟨_, _, _, rfl, fit_nil.mpr rfl⟩) hfit hbalanced hne⟩
  · simp only [Bool.false_eq_true, if_false, run_bind, run_optional] at hread
    cases hgroup : anyGroup ts with
    | none =>
      rw [hgroup] at hread
      obtain ⟨-, rfl⟩ := Prod.mk.inj (Option.some.inj hread)
      exact ⟨[], rfl, .none⟩
    | some x =>
      obtain ⟨_, mid⟩ := x
      rw [hgroup] at hread
      obtain ⟨-, rfl⟩ := Prod.mk.inj (Option.some.inj hread)
      obtain ⟨o, c, inner, front, hclose, hinner, rfl, hfit⟩ := eq_of_anyGroup hgroup
      exact ⟨front, rfl, .group hclose hinner hfit⟩

/-- Names with double colons between them, as the ones in front of the last and the last. -/
theorem segments_concat (first : String) (more : List String) :
    ∃ (segs : List String) (last : String), .word first :: more.flatMap (fun s => [Shape.mark "::", .word s]) =
      segs.flatMap (fun s => [Shape.word s, .mark "::"]) ++ [.word last] := by
  induction more generalizing first with
  | nil => exact ⟨[], first, rfl⟩
  | cons second more ih =>
    obtain ⟨segs, last, hshapes⟩ := ih second
    refine ⟨first :: segs, last, ?_⟩
    rw [List.flatMap_cons, List.flatMap_cons, List.cons_append, List.singleton_append, hshapes]
    rfl

private theorem eq_of_colonName {w : String} (h : (do mark "::"; name : Reader String) ts = some (w, rest)) :
    ∃ front ss, ts = front ++ rest ∧ Fit front ss ∧ [.mark "::", .word w] = ss := by
  rw [run_bind] at h
  obtain ⟨⟨_, mid⟩, hcolons, hname⟩ := Option.bind_eq_some_iff.mp h
  obtain ⟨gap, commented, rfl⟩ := eq_of_mark hcolons
  obtain ⟨gap', commented', rfl⟩ := eq_of_name hname
  exact ⟨[_, _], _, rfl, fit_mark.mpr ⟨_, _, _, rfl, fit_word.mpr ⟨_, _, _, rfl, fit_nil.mpr rfl⟩⟩, rfl⟩

private theorem eq_of_separated {names : List String} (h : separated "::" name ts = some (names, rest)) :
    ∃ (segs : List String) (last : String) (path : List Token), ts = path ++ rest ∧
      Fit path (segs.flatMap (fun s => [Shape.word s, .mark "::"]) ++ [.word last]) := by
  rw [separated, run_bind] at h
  obtain ⟨⟨first, mid⟩, hfirst, hmore⟩ := Option.bind_eq_some_iff.mp h
  obtain ⟨gap, commented, rfl⟩ := eq_of_name hfirst
  obtain ⟨path, sss, hmid, hpath, hnames⟩ := eq_of_repeated (fun _ _ _ hread => eq_of_colonName hread) mid
  obtain rfl : (repeated (do mark "::"; name) mid).2 = rest := (Prod.mk.inj (Option.some.inj hmore)).2
  obtain rfl := List.forall₂_eq_eq_eq ▸ List.forall₂_map_left_iff.mpr hnames
  obtain ⟨segs, last, hshapes⟩ := segments_concat first (repeated (do mark "::"; name) mid).1
  refine ⟨segs, last, ⟨.word, first, gap, commented⟩ :: path, ?_, ?_⟩
  · rw [List.cons_append, ← hmid]
  · rw [← hshapes]
    exact fit_word.mpr ⟨_, _, _, rfl, hpath⟩

private theorem eq_of_attributePath (h : attributePath ts = some (u, rest)) :
    ∃ (front : ImportPath) (name : String) (path : List Token), ts = path ++ rest ∧
      Fit path (front.leading ++ [.word name]) := by
  rw [attributePath, run_bind] at h
  obtain ⟨⟨b, mid⟩, hcolons, hread⟩ := Option.bind_eq_some_iff.mp h
  rw [run_bind] at hread
  obtain ⟨⟨names, mid'⟩, hnames, hend⟩ := Option.bind_eq_some_iff.mp hread
  obtain ⟨-, rfl⟩ := Prod.mk.inj (Option.some.inj hend)
  obtain ⟨segs, last, path, rfl, hpath⟩ := eq_of_separated hnames
  rcases eq_of_optionalMark hcolons with ⟨-, gap, commented, rfl⟩ | ⟨-, rfl⟩
  · exact ⟨⟨true, segs⟩, last, ⟨.mark, "::", gap, commented⟩ :: path, rfl, fit_mark.mpr ⟨_, _, _, rfl, hpath⟩⟩
  · exact ⟨⟨false, segs⟩, last, path, rfl, hpath⟩

private theorem eq_of_outerAttribute {text : String} (h : outerAttribute ts = some (text, rest)) :
    ∃ a : WrittenAttribute, ts = a.tokens ++ rest ∧ text = a.text := by
  rw [run_outerAttribute, run_writtenText] at h
  obtain ⟨⟨_, mid⟩, hread, htext⟩ := Option.map_eq_some_iff.mp h
  simp only [run_bind] at hread
  obtain ⟨⟨_, ts₁⟩, hsign, hread⟩ := Option.bind_eq_some_iff.mp hread
  obtain ⟨⟨_, ts₂⟩, hopen, hread⟩ := Option.bind_eq_some_iff.mp hread
  obtain ⟨⟨_, ts₃⟩, hpath, hread⟩ := Option.bind_eq_some_iff.mp hread
  obtain ⟨⟨_, ts₄⟩, harguments, hclose⟩ := Option.bind_eq_some_iff.mp hread
  obtain ⟨gap, commented, rfl⟩ := eq_of_mark hsign
  obtain ⟨gap', commented', rfl⟩ := eq_of_mark hopen
  obtain ⟨front, name, path, rfl, hfit⟩ := eq_of_attributePath hpath
  obtain ⟨arguments, rfl, hwritten⟩ := eq_of_attributeArguments harguments
  obtain ⟨gap'', commented'', rfl⟩ := eq_of_mark hclose
  obtain ⟨rfl, rfl⟩ := Prod.mk.inj htext
  let a : WrittenAttribute :=
    { opening := [⟨.mark, "#", gap, commented⟩, ⟨.mark, "[", gap', commented'⟩]
      path, arguments, front, name
      closing := [⟨.mark, "]", gap'', commented''⟩]
      fit_opening := fit_mark.mpr ⟨_, _, _, rfl, fit_mark.mpr ⟨_, _, _, rfl, fit_nil.mpr rfl⟩⟩
      fit_path := hfit
      isArguments := hwritten
      fit_closing := fit_mark.mpr ⟨_, _, _, rfl, fit_nil.mpr rfl⟩ }
  have htokens : (⟨.mark, "#", gap, commented⟩ :: ⟨.mark, "[", gap', commented'⟩ ::
      (path ++ (arguments ++ ⟨.mark, "]", gap'', commented''⟩ :: mid)) : List Token) = a.tokens ++ mid := by
    simp [a, WrittenAttribute.tokens]
  refine ⟨a, htokens, ?_⟩
  dsimp only
  rw [htokens, WrittenAttribute.text]
  simp

end Inversion

/-- An attribute is read exactly where one is written, and its text is what is written. -/
theorem outerAttribute_eq_some_iff {ts rest : List Token} {text : String} :
    outerAttribute ts = some (text, rest) ↔ ∃ a : WrittenAttribute, ts = a.tokens ++ rest ∧ text = a.text := by
  constructor
  · exact eq_of_outerAttribute
  · rintro ⟨a, rfl, rfl⟩
    exact outerAttribute_written a rest

theorem entry_attribute (a : WrittenAttribute) (rest : List Token) :
    entry (a.tokens ++ rest) = some (a.entry, rest) := by
  obtain ⟨gap, more, htokens⟩ := a.exists_tokens
  have hread : outerAttribute (a.tokens ++ rest) = some (a.text, rest) :=
    outerAttribute_eq_some_iff.mpr ⟨a, rfl, rfl⟩
  rw [htokens] at hread ⊢
  obtain ⟨n, hn⟩ : ∃ n, depth (⟨.mark, "#", gap, a.isCommented⟩ :: more ++ rest) = n + 1 := ⟨_, rfl⟩
  have hitem : deep item (⟨.mark, "#", gap, a.isCommented⟩ :: more ++ rest) = some (.attribute a.text, rest) := by
    rw [deep, hn, item]
    rw [List.cons_append] at hread ⊢
    simp [hread]
  rw [List.cons_append] at hitem ⊢
  simp [entry, hitem, WrittenAttribute.entry]

/-- A reader of items that reads no attribute. -/
def ReadsOthers (r : Reader Item) : Prop := ∀ ts i rest, r ts = some (i, rest) → ∀ text, i ≠ .attribute text

section Others

variable {α : Type} {m : Reader α} {r s : Reader Item}

theorem ReadsOthers.bind {f : α → Reader Item} (hf : ∀ a, ReadsOthers (f a)) : ReadsOthers (m >>= f) := by
  intro ts i rest h
  rw [run_bind] at h
  obtain ⟨⟨a, mid⟩, _, hread⟩ := Option.bind_eq_some_iff.mp h
  exact hf a mid i rest hread

theorem readsOthers_map {f : α → Item} (hf : ∀ a text, f a ≠ .attribute text) : ReadsOthers (f <$> m) := by
  intro ts i rest h
  rw [run_map] at h
  obtain ⟨⟨a, mid⟩, _, heq⟩ := Option.map_eq_some_iff.mp h
  obtain ⟨rfl, -⟩ := Prod.mk.inj heq
  exact hf a

theorem readsOthers_pure {i : Item} (hi : ∀ text, i ≠ .attribute text) : ReadsOthers (pure i) := by
  intro ts j rest h
  obtain ⟨rfl, -⟩ := Prod.mk.inj (Option.some.inj h)
  exact hi

theorem ReadsOthers.orElse (hr : ReadsOthers r) (hs : ReadsOthers s) : ReadsOthers (r <|> s) := by
  intro ts i rest h
  rw [run_orElse] at h
  rcases Option.or_eq_some_iff.mp h with h | ⟨_, h⟩
  · exact hr ts i rest h
  · exact hs ts i rest h

theorem readsOthers_failure : ReadsOthers failure := fun _ _ _ h => nomatch h

theorem ReadsOthers.ite {c : Prop} [Decidable c] (hr : ReadsOthers r) (hs : ReadsOthers s) :
    ReadsOthers (if c then r else s) := by
  split
  · exact hr
  · exact hs

end Others

private theorem readsOthers_keywordItem (n : Nat) : ReadsOthers (keywordItem n) := by
  cases n with
  | zero => exact readsOthers_failure
  | succ n =>
    rw [keywordItem]
    refine ReadsOthers.bind fun t => ?_
    split
    · exact readsOthers_failure
    · refine readsOthers_failure.ite ?_
      unfold aliasDecl
      -- whatever the keyword is, another item is given in the end
      split
      all_goals
        repeat' first
          | exact readsOthers_pure (by simp)
          | exact readsOthers_map (by simp)
          | apply ReadsOthers.orElse
          | apply ReadsOthers.ite
          | refine ReadsOthers.bind fun _ => ?_

private theorem outerAttribute_of_item {n : Nat} {ts rest : List Token} {text : String}
    (h : item n ts = some (.attribute text, rest)) : outerAttribute ts = some (text, rest) := by
  cases n with
  | zero => cases h
  | succ n =>
    rw [item, run_bind] at h
    obtain ⟨⟨b, mid⟩, hmark, hread⟩ := Option.bind_eq_some_iff.mp h
    cases b with
    | true =>
      obtain ⟨hitem, -⟩ := Prod.mk.inj (Option.some.inj hread)
      cases hitem
    | false =>
      obtain rfl : ts = mid := by
        rcases eq_of_optionalMark hmark with ⟨hb, -⟩ | ⟨-, hts⟩
        · cases hb
        · exact hts
      dsimp only at hread
      rw [run_ite, if_neg (by simp), run_bind] at hread
      obtain ⟨⟨b, mid⟩, hmark, hread⟩ := Option.bind_eq_some_iff.mp hread
      cases b with
      | true =>
        obtain rfl : ts = mid := by
          cases ts with
          | nil => cases hmark
          | cons t ts => exact (Prod.mk.inj (Option.some.inj hmark)).2
        rw [if_pos rfl, run_orElse, run_map] at hread
        rcases Option.or_eq_some_iff.mp hread with hread | ⟨_, hread⟩
        · obtain ⟨⟨text', mid⟩, houter, heq⟩ := Option.map_eq_some_iff.mp hread
          obtain ⟨hitem, rfl⟩ := Prod.mk.inj heq
          rwa [← Item.attribute.inj hitem]
        · have hinner : ReadsOthers (do innerAttribute; pure .innerAttribute) :=
            ReadsOthers.bind fun _ => readsOthers_pure (by simp)
          exact absurd rfl (hinner _ _ _ hread text)
      | false =>
        rw [if_neg (by simp)] at hread
        have hothers : ReadsOthers ((do visibility; keywordItem n) <|> .other <$> macroCall) :=
          (ReadsOthers.bind fun _ => readsOthers_keywordItem n).orElse (readsOthers_map (by simp))
        exact absurd rfl (hothers _ _ _ hread text)

private theorem readsOthers_looseExpression : ReadsOthers looseExpression := by
  unfold looseExpression
  refine ReadsOthers.bind fun _ => ReadsOthers.ite ?_ ?_
  · exact ReadsOthers.bind fun _ => readsOthers_pure (by simp)
  · exact ReadsOthers.bind fun _ => ReadsOthers.bind fun _ => readsOthers_pure (by simp)

theorem eq_of_entry {ts rest : List Token} {e : Entry} {text : String} (h : entry ts = some (e, rest))
    (hitem : e.item = .attribute text) : ∃ a : WrittenAttribute, ts = a.tokens ++ rest ∧ e = a.entry := by
  rw [entry, run_bind, run_peek, Option.bind_some, run_bind] at h
  obtain ⟨⟨i, mid⟩, hread, hentry⟩ := Option.bind_eq_some_iff.mp h
  obtain ⟨rfl, rfl⟩ := Prod.mk.inj (Option.some.inj hentry)
  obtain rfl : i = .attribute text := hitem
  rw [run_orElse] at hread
  rcases Option.or_eq_some_iff.mp hread with hread | ⟨_, hread⟩
  · obtain ⟨a, rfl, rfl⟩ := outerAttribute_eq_some_iff.mp (outerAttribute_of_item hread)
    obtain ⟨gap, more, htokens⟩ := a.exists_tokens
    refine ⟨a, rfl, ?_⟩
    rw [htokens]
    rfl
  · exact absurd rfl (readsOthers_looseExpression _ _ _ hread text)

end Reader

end TraitMock.Syntax
