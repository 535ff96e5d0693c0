import Mathlib.Data.List.DropRight
import Mathlib.Data.List.TakeWhile
import TraitMock.Proofs.Interface.Supertraits
import TraitMock.Proofs.Syntax.Entries
import TraitMock.Proofs.Text.Occurrences

namespace TraitMock

open Files (Tree)
open Syntax (Entry ReadsEntries Token TraitDecl WrittenAttribute isSpace verbatim)

section Occurrences

variable {part cs ys after : List Char}

theorem afterLast?_eq_none_iff (hne : part ≠ []) : afterLast? part cs = none ↔ ¬part <:+: cs := by
  induction cs with
  | nil => simp [afterLast?, hne]
  | cons c cs ih =>
    rw [afterLast?, List.infix_cons_iff]
    cases hrest : afterLast? part cs with
    | some after =>
      have hmem : part <:+: cs := by
        by_contra hnot
        rw [ih.mpr hnot] at hrest
        cases hrest
      simp [hmem]
    | none =>
      rw [← List.isPrefixOf_iff_prefix, ← List.isSome_isPrefixOf?_eq_isPrefixOf, Option.isSome_iff_ne_none]
      simp [ih.mp hrest]

private theorem afterLast?_append (h : afterLast? part cs = some after) (front : List Char) :
    afterLast? part (front ++ cs) = some after := by
  induction front with
  | nil => exact h
  | cons c front ih => rw [List.cons_append, afterLast?, ih]

/-- A part that does not begin again is the last one. -/
theorem afterLast?_of_last {c : Char} (h : ¬c :: part <:+: part ++ ys) :
    afterLast? (c :: part) (c :: part ++ ys) = some ys := by
  have hnone := (afterLast?_eq_none_iff (List.cons_ne_nil c part)).mpr h
  rw [List.cons_append, afterLast?, hnone]
  exact List.isPrefixOf?_eq_some_iff_append_eq.mpr rfl

private theorem dropClosing_append (h : cs.getLast? ≠ some ']') : dropClosing (cs ++ [']']) = cs := by
  have hdrop : dropClosing (cs ++ [']']) = (cs ++ [']']).rdropWhile (· = ']') := rfl
  rw [hdrop, List.rdropWhile_concat_pos _ _ _ (by simp), List.rdropWhile_eq_self_iff]
  rintro hne hlast
  exact h ((List.getLast?_eq_some_getLast hne).trans (congrArg some (of_decide_eq_true hlast)))

end Occurrences

/-- The name of the attribute that marks a trait with asynchronous methods. -/
def asyncName : String := "async_trait"

private theorem asyncAttribute?_eq_none_iff {text : String} :
    asyncAttribute? text = none ↔ Text.contains (Text.compact text) asyncName = false := by
  have hne : asyncName.toList ≠ [] := by decide
  rw [asyncAttribute?, Option.map_eq_none_iff, ← asyncName, afterLast?_eq_none_iff hne, ← Text.containsChars_iff,
    Bool.not_eq_true]
  rfl

namespace Syntax

/-- Some tokens as they are written, with the gap in front of the first. -/
def spelled (ts : List Token) : String := String.join (ts.map fun t => t.gap ++ t.text)

theorem spelled_append (ts us : List Token) : spelled (ts ++ us) = spelled ts ++ spelled us := by
  rw [spelled, List.map_append, String.join_append]
  rfl

theorem verbatim_cons (t : Token) (ts : List Token) : verbatim (t :: ts) = t.text ++ spelled ts := by
  have hfold : ∀ (us : List Token) (s : String), us.foldl (fun s u => s ++ u.gap ++ u.text) s = s ++ spelled us := by
    intro us
    induction us with
    | nil => simp [spelled]
    | cons u us ih =>
      intro s
      rw [List.foldl_cons, ih, spelled, spelled, List.map_cons, String.join_cons, String.append_assoc,
        String.append_assoc, String.append_assoc]
  exact hfold ts t.text

namespace WrittenAttribute

variable {a : WrittenAttribute}

/-- Whether the attribute is the one that marks a trait with asynchronous methods, by whatever path. -/
def isAsync (a : WrittenAttribute) : Bool := a.name == asyncName || a.name == "r#" ++ asyncName

/-- The attribute that an implementation repeats for an attribute. -/
def mark (a : WrittenAttribute) : String :=
  "#[async_trait::async_trait" ++ Text.compact (verbatim a.arguments) ++ "]"

/-- Whether the name of the attribute occurs somewhere in its text. -/
def mentionsAsync (a : WrittenAttribute) : Bool := Text.contains (Text.compact a.text) asyncName

/-- An attribute that nothing blurs: no comment stands around its arguments, which do not have the name of the attribute
    in their text and do not end with a square bracket. -/
structure IsPlain (a : WrittenAttribute) : Prop where
  argumentsGap : ∀ t ∈ a.arguments.head?, ∀ c ∈ t.gap.toList, isSpace c = true
  closingGap : ∀ t ∈ a.closing.head?, ∀ c ∈ t.gap.toList, isSpace c = true
  once : Text.contains (Text.compact (verbatim a.arguments)) asyncName = false
  openEnd : (Text.compact (verbatim a.arguments)).toList.getLast? ≠ some ']'

theorem compact_spelled {ts : List Token} (hgap : ∀ t ∈ ts.head?, ∀ c ∈ t.gap.toList, isSpace c = true) :
    Text.compact (spelled ts) = Text.compact (verbatim ts) := by
  cases ts with
  | nil => rfl
  | cons t ts =>
    have hblanks : Text.compact t.gap = "" :=
      Text.compact_of_blanks fun c hc => Text.isBlank_of_isSpace (hgap t rfl c hc)
    have hsplit : spelled (t :: ts) = t.gap ++ verbatim (t :: ts) := by
      rw [verbatim_cons, spelled, List.map_cons, String.join_cons, String.append_assoc]
      rfl
    rw [hsplit, Text.compact_append, hblanks, String.empty_append]

/-- The text of an attribute, cut behind its last name. -/
theorem text_eq (a : WrittenAttribute) :
    ∃ front, a.text = front ++ a.name ++ spelled a.arguments ++ spelled a.closing := by
  obtain ⟨gap, commented, bracket, hopening, -⟩ := fit_mark.mp a.fit_opening
  obtain ⟨path, last, -, hlast, hpath⟩ := fit_append.mp a.fit_path
  obtain ⟨gap', commented', rest, rfl, hrest⟩ := fit_word.mp hlast
  obtain rfl := fit_nil.mp hrest
  have hname : spelled [⟨.word, a.name, gap', commented'⟩] = gap' ++ a.name := by simp [spelled]
  refine ⟨"#" ++ spelled bracket ++ spelled path ++ gap', ?_⟩
  rw [text, tokens, hopening, List.cons_append, verbatim_cons, spelled_append, spelled_append, spelled_append, hpath,
    spelled_append, hname]
  simp only [String.append_assoc]

private theorem not_blank_name (h : a.isAsync = true) : Text.compact a.name = a.name := by
  have hname : a.name = asyncName ∨ a.name = "r#" ++ asyncName := by simpa [isAsync] using h
  rcases hname with hname | hname <;> rw [hname]
  · exact Text.compact_eq_self (not_blank_of_all (by decide))
  · exact Text.compact_eq_self (not_blank_of_all (by decide))

/-- The text of a plain attribute by which methods are asynchronous ends with its name, its arguments and a bracket. -/
theorem compact_text (h : a.isAsync = true) (hplain : a.IsPlain) :
    ∃ front, (Text.compact a.text).toList =
      front ++ (asyncName.toList ++ ((Text.compact (verbatim a.arguments)).toList ++ [']'])) := by
  obtain ⟨gap, commented, rest, hclosing, hrest⟩ := fit_mark.mp a.fit_closing
  obtain rfl := fit_nil.mp hrest
  obtain ⟨front, htext⟩ := a.text_eq
  have hend : Text.compact (spelled a.closing) = "]" := by
    rw [compact_spelled hplain.closingGap, hclosing]
    exact Text.compact_eq_self (s := "]") (not_blank_of_all (by decide))
  have hname : ∃ pre : List Char, a.name.toList = pre ++ asyncName.toList := by
    have hname : a.name = asyncName ∨ a.name = "r#" ++ asyncName := by simpa [isAsync] using h
    rcases hname with hname | hname
    · exact ⟨[], by rw [hname]; rfl⟩
    · exact ⟨['r', '#'], by rw [hname, String.toList_append]; rfl⟩
  obtain ⟨pre, hpre⟩ := hname
  refine ⟨(Text.compact front).toList ++ pre, ?_⟩
  rw [htext, Text.compact_append, Text.compact_append, Text.compact_append, not_blank_name h,
    compact_spelled hplain.argumentsGap, hend]
  simp only [String.toList_append, hpre, List.append_assoc]
  rfl

/-- Behind its name, an attribute does not go on with a letter of the name. -/
theorem head_arguments (a : WrittenAttribute) :
    ∃ c rest, (Text.compact (verbatim a.arguments)).toList ++ [']'] = c :: rest ∧ c ∉ asyncName.toList := by
  rcases Reader.starts_arguments a.isArguments with hnil | ⟨⟨kind, m, gap, commented⟩, more, harguments, -, hmem⟩
  · exact ⟨']', [], by rw [hnil]; rfl, by decide⟩
  · obtain ⟨c, hm, hblank, hc⟩ : ∃ c, m = String.singleton c ∧ Text.compact m = m ∧ c ∉ asyncName.toList := by
      simp only [List.mem_cons, List.not_mem_nil, or_false] at hmem
      rcases hmem with rfl | rfl | rfl | rfl
      · exact ⟨'=', rfl, Text.compact_eq_self (not_blank_of_all (by decide)), by decide⟩
      · exact ⟨'(', rfl, Text.compact_eq_self (not_blank_of_all (by decide)), by decide⟩
      · exact ⟨'[', rfl, Text.compact_eq_self (not_blank_of_all (by decide)), by decide⟩
      · exact ⟨'\x7b', rfl, Text.compact_eq_self (not_blank_of_all (by decide)), by decide⟩
    refine ⟨c, (Text.compact (spelled more)).toList ++ [']'], ?_, hc⟩
    rw [harguments, verbatim_cons, Text.compact_append, hblank, hm, String.toList_append, String.toList_singleton]
    rfl

/-- Behind the name of a plain attribute, the name does not begin again. -/
theorem not_infix_behind (hplain : a.IsPlain) (tail : List Char) (hlength : tail.length < asyncName.toList.length) :
    ¬asyncName.toList <:+: tail ++ ((Text.compact (verbatim a.arguments)).toList ++ [']']) := by
  obtain ⟨c, rest, hhead, hc⟩ := a.head_arguments
  rw [hhead, Text.infix_append_cons_iff hc]
  rintro (htail | hrest)
  · exact absurd htail.length_le (Nat.not_le.mpr hlength)
  · have hwhole : asyncName.toList <:+: (Text.compact (verbatim a.arguments)).toList ++ ']' :: [] := by
      rw [hhead]
      exact hrest.trans (List.suffix_cons c rest).isInfix
    rcases (Text.infix_append_cons_iff (by decide)).mp hwhole with hmem | hnil
    · have honce := hplain.once
      rw [Text.contains, Text.containsChars_iff.mpr hmem] at honce
      cases honce
    · exact absurd hnil (by decide)

private theorem asyncAttribute?_of_isPlain (h : a.isAsync = true) (hplain : a.IsPlain) :
    asyncAttribute? a.text = some a.mark := by
  obtain ⟨front, htext⟩ := compact_text h hplain
  have hname : asyncName.toList = 'a' :: "sync_trait".toList := rfl
  have hbehind := not_infix_behind hplain "sync_trait".toList (by decide)
  have hlast : afterLast? asyncName.toList (Text.compact a.text).toList =
      some ((Text.compact (verbatim a.arguments)).toList ++ [']']) := by
    rw [hname] at hbehind
    rw [htext, hname]
    exact afterLast?_append (afterLast?_of_last hbehind) front
  rw [asyncAttribute?, ← asyncName, hlast, Option.map_some, dropClosing_append hplain.openEnd, String.ofList_toList]
  rfl

private theorem asyncAttribute?_of_not_mentionsAsync (h : a.mentionsAsync = false) : asyncAttribute? a.text = none :=
  asyncAttribute?_eq_none_iff.mpr h

end WrittenAttribute

end Syntax

section Search

/-- The attributes that the search for the mark of a trait comes to, from the trait on: it does not go past a comment.
    The attributes are given from the last to the first. -/
def reached : Bool → List WrittenAttribute → List WrittenAttribute
  | true, _ => []
  | false, [] => []
  | false, a :: more => a :: reached a.isCommented more

/-- The attributes between the last one by which methods are asynchronous and the trait, the nearest first; all of them
    if there is none. -/
def behindAsync (as : List WrittenAttribute) : List WrittenAttribute := as.reverse.takeWhile fun a => !a.isAsync

private theorem attributesBefore_eq {others : List Entry} (hothers : ∀ o ∈ others.head?, ∀ text, o.item ≠ .attribute text)
    (near : List WrittenAttribute) (e : Entry) :
    attributesBefore (e :: (near.map (·.entry) ++ others)) = (reached e.commented near).map (·.text) := by
  induction near generalizing e with
  | nil =>
    rw [List.map_nil, List.nil_append]
    cases others with
    | nil => cases e.commented <;> rfl
    | cons o others =>
      rw [attributesBefore]
      cases e.commented with
      | true => rfl
      | false =>
        rw [if_neg (by decide)]
        split
        · rename_i text htext
          exact absurd htext (hothers o rfl text)
        · rfl
  | cons a near ih =>
    rw [List.map_cons, List.cons_append, attributesBefore]
    cases e.commented with
    | true => rfl
    | false =>
      have hnear := ih a.entry
      rw [if_neg (by decide), hnear]
      rfl

/-- An entry declares the trait of a name. -/
def DeclaresTrait (name : String) (e : Entry) : Prop := ∃ d, e.item = .trait d ∧ d.name = name

theorem findTrait_cons {name : String} {e : Entry} (h : ¬DeclaresTrait name e) (before rest : List Entry) :
    findTrait name before (e :: rest) = findTrait name (e :: before) rest := by
  rw [findTrait]
  split
  · rename_i d hitem
    rw [if_neg fun hname => h ⟨d, hitem, hname⟩]
  · rfl

theorem findTrait_append {name : String} {front : List Entry} (h : ∀ e ∈ front, ¬DeclaresTrait name e)
    (before rest : List Entry) :
    findTrait name before (front ++ rest) = findTrait name (front.reverse ++ before) rest := by
  induction front generalizing before with
  | nil => rfl
  | cons e front ih =>
    obtain ⟨he, hfront⟩ := List.forall_mem_cons.mp h
    rw [List.cons_append, findTrait_cons he, ih hfront, List.reverse_cons, List.append_assoc, List.singleton_append]

theorem findTrait_declared {name : String} {commented : Bool} {d : TraitDecl} (h : d.name = name)
    (before after : List Entry) : findTrait name before (⟨commented, .trait d⟩ :: after) =
      some (d, (attributesBefore (⟨commented, .trait d⟩ :: before)).findSome? asyncAttribute?) := by
  rw [findTrait]
  exact if_pos h

/-- A trait that is found is the first of its name. -/
theorem eq_of_findTrait {name : String} {before es : List Entry} {d : TraitDecl} {mark : Option String}
    (h : findTrait name before es = some (d, mark)) :
    ∃ front commented after, es = front ++ ⟨commented, .trait d⟩ :: after ∧ d.name = name ∧
      ∀ e ∈ front, ¬DeclaresTrait name e := by
  induction es generalizing before with
  | nil => cases h
  | cons e es ih =>
    by_cases he : DeclaresTrait name e
    · obtain ⟨d', hitem, hname⟩ := he
      obtain ⟨commented, item⟩ := e
      obtain rfl : item = .trait d' := hitem
      rw [findTrait_declared hname] at h
      obtain ⟨rfl, -⟩ := Prod.mk.inj (Option.some.inj h)
      exact ⟨[], commented, es, rfl, hname, by simp⟩
    · rw [findTrait_cons he] at h
      obtain ⟨front, commented, after, rfl, hname, hfront⟩ := ih h
      exact ⟨e :: front, commented, after, rfl, hname, List.forall_mem_cons.mpr ⟨he, hfront⟩⟩

/-- In a source text, the trait of a name stands directly behind some attributes, which are all that stand there, with
    or without a comment in front of the trait. -/
def StandsBehind (source name : String) (as : List WrittenAttribute) (commented : Bool) : Prop :=
  ∃ (ts rest : List Token) (before after : List Entry) (d : TraitDecl), Syntax.tokens source = some ts ∧
    ReadsEntries ts before (as.flatMap (·.tokens) ++ rest) ∧ (∀ e ∈ before, ¬DeclaresTrait name e) ∧
    (∀ e ∈ before.getLast?, ∀ text, e.item ≠ .attribute text) ∧ d.name = name ∧
    ReadsEntries rest (⟨commented, .trait d⟩ :: after) []

private theorem StandsBehind.findTrait_eq {source name : String} {as : List WrittenAttribute} {commented : Bool}
    (h : StandsBehind source name as commented) : ∃ es d, Syntax.parse source = some es ∧
      findTrait name [] es = some (d, (reached commented as.reverse).findSome? fun a => asyncAttribute? a.text) := by
  obtain ⟨ts, rest, before, after, d, htokens, hbefore, hnone, hlast, hname, htrait⟩ := h
  have hread := hbefore.append ((ReadsEntries.attributes as rest).append htrait)
  refine ⟨_, d, Syntax.parse_eq_some_iff.mpr ⟨ts, htokens, hread⟩, ?_⟩
  have hattributes : ∀ e ∈ as.map (·.entry), ¬DeclaresTrait name e := by
    simp only [List.forall_mem_map]
    rintro a - ⟨d, hitem, -⟩
    cases hitem
  have hothers : ∀ o ∈ before.reverse.head?, ∀ text, o.item ≠ .attribute text := by rwa [List.head?_reverse]
  have hsearch := attributesBefore_eq hothers as.reverse ⟨commented, .trait d⟩
  rw [findTrait_append hnone, findTrait_append hattributes, findTrait_declared hname, List.append_nil,
    ← List.map_reverse, hsearch, List.findSome?_map, Function.comp_def]

/-- The attributes at the end of some entries. -/
theorem exists_lastAttributes (es : List Entry) :
    ∃ before last, es = before ++ last ∧ (∀ e ∈ last, ∃ text, e.item = .attribute text) ∧
      ∀ e ∈ before.getLast?, ∀ text, e.item ≠ .attribute text := by
  induction es using List.reverseRecOn with
  | nil => exact ⟨[], [], rfl, by simp, by simp⟩
  | append_singleton es e ih =>
    by_cases he : ∃ text, e.item = .attribute text
    · obtain ⟨before, last, rfl, hlast, hbefore⟩ := ih
      refine ⟨before, last ++ [e], List.append_assoc .., ?_, hbefore⟩
      exact List.forall_mem_append.mpr ⟨hlast, List.forall_mem_singleton.mpr he⟩
    · refine ⟨es ++ [e], [], (List.append_nil _).symm, by simp, ?_⟩
      simpa using he

private theorem exists_standsBehind {source name : String} {es : List Entry} {d : TraitDecl} {mark : Option String}
    (hparse : Syntax.parse source = some es) (hfind : findTrait name [] es = some (d, mark)) :
    ∃ as commented, StandsBehind source name as commented := by
  obtain ⟨ts, htokens, hread⟩ := Syntax.parse_eq_some_iff.mp hparse
  obtain ⟨front, commented, after, rfl, hname, hfront⟩ := eq_of_findTrait hfind
  obtain ⟨before, last, rfl, hattributes, hlast⟩ := exists_lastAttributes front
  obtain ⟨mid, hreadFront, hreadTrait⟩ := hread.of_append
  obtain ⟨mid', hreadBefore, hreadLast⟩ := hreadFront.of_append
  obtain ⟨as, rfl, rfl⟩ := hreadLast.exists_attributes hattributes
  exact ⟨as, commented, ts, mid, before, after, d, htokens, hreadBefore,
    fun e he => hfront e (List.mem_append_left _ he), hlast, hname, hreadTrait⟩

/-- Nothing in front of a trait disturbs the search for its mark: no comment stands between the last attribute by which
    methods are asynchronous and the trait, no other attribute that the search comes to has the name of that attribute
    in its text, and the attribute itself is plain. -/
structure Undisturbed (commented : Bool) (as : List WrittenAttribute) : Prop where
  uncommented : (∃ a ∈ as, a.isAsync = true) → commented = false ∧ ∀ a ∈ behindAsync as, a.isCommented = false
  unmentioned : ∀ a ∈ reached commented (behindAsync as), a.mentionsAsync = false
  plain : ∀ a ∈ as.reverse.find? (·.isAsync), a.IsPlain

theorem reached_append {near : List WrittenAttribute} (h : ∀ a ∈ near, a.isCommented = false)
    (more : List WrittenAttribute) :
    reached false (near ++ more) = near ++ reached false more := by
  induction near with
  | nil => rfl
  | cons a near ih =>
    obtain ⟨ha, hnear⟩ := List.forall_mem_cons.mp h
    rw [List.cons_append, reached, ha, ih hnear, List.cons_append]

/-- An undisturbed search finds the mark of the last attribute by which methods are asynchronous. -/
theorem Undisturbed.findSome?_reached {commented : Bool} {as : List WrittenAttribute} (h : Undisturbed commented as) :
    ((reached commented as.reverse).findSome? fun a => asyncAttribute? a.text) =
      (as.reverse.find? (·.isAsync)).map (·.mark) := by
  obtain ⟨huncommented, hunmentioned, hplain⟩ := h
  have hskip : ((reached commented (behindAsync as)).findSome? fun a => asyncAttribute? a.text) = none :=
    List.findSome?_eq_none_iff.mpr fun a ha =>
      Syntax.WrittenAttribute.asyncAttribute?_of_not_mentionsAsync (hunmentioned a ha)
  cases hfind : as.reverse.find? (·.isAsync) with
  | none =>
    have hall : behindAsync as = as.reverse := by
      rw [behindAsync, List.takeWhile_eq_self_iff]
      intro a ha
      simpa using List.find?_eq_none.mp hfind a ha
    rw [hall] at hskip
    rw [hskip]
    rfl
  | some a =>
    obtain ⟨hasync, near, more, hsplit, hnear⟩ := List.find?_eq_some_iff_append.mp hfind
    have hbehind : behindAsync as = near := by
      rw [behindAsync, hsplit, List.takeWhile_append_of_pos (by simpa using hnear),
        List.takeWhile_cons_of_neg (by simpa using hasync), List.append_nil]
    obtain ⟨rfl, hclear⟩ := huncommented ⟨a, List.mem_reverse.mp (List.mem_of_find?_eq_some hfind), hasync⟩
    rw [hbehind] at hclear hskip
    have hnearest : reached false near = near := by simpa [reached] using reached_append hclear []
    rw [hnearest] at hskip
    rw [hsplit, reached_append hclear (a :: more), List.findSome?_append, hskip, Option.none_or, reached,
      List.findSome?_cons, Syntax.WrittenAttribute.asyncAttribute?_of_isPlain hasync (hplain a hfind)]
    rfl

end Search

/-- The mark of a trait is found among the attributes that are written in front of it. Whatever stands there, it comes
    from the last attribute, of those that no comment separates from the trait, with the name of the attribute that marks
    asynchronous methods somewhere in its text. If nothing disturbs that search, the trait has a mark exactly if one of
    all the attributes in front of it is that attribute, and the mark then repeats the arguments of the last one. -/
theorem asyncMark_of_attributes {files : Tree} {src dst : Package} {variadicSlices : Bool} {name : String}
    {r r' : Resolver} {i : Interface} (h : Gives (Interface.ofTrait files src dst variadicSlices name) r i r') :
    ∀ t ∈ i.traits, ∃ w k s d text, IsListed files src dst variadicSlices w r' k t s d ∧
      files.readText s.package.file = .ok text ∧ (∃ as commented, StandsBehind text t.name as commented) ∧
      ∀ as commented, StandsBehind text t.name as commented →
        t.asyncMark = ((reached commented as.reverse).findSome? fun a => asyncAttribute? a.text) ∧
        (Undisturbed commented as → t.asyncMark = (as.reverse.find? (·.isAsync)).map (·.mark)) := by
  obtain ⟨w, -, hlisted⟩ := exists_isListed h
  intro t ht
  obtain ⟨k, s, d, hl⟩ := hlisted t ht
  obtain ⟨text, htext, hparse, -⟩ := Modules.Source.exists_text hl.source
  have hdeclared := hl.implements.name ▸ hl.implements.declared
  refine ⟨w, k, s, d, text, hl, htext, exists_standsBehind hparse hdeclared, fun as commented hbehind => ?_⟩
  obtain ⟨es, d', hparse', hfind⟩ := hbehind.findTrait_eq
  obtain rfl : s.source.entries = es := Option.some.inj (hparse.symm.trans hparse')
  have hmark : t.asyncMark = (reached commented as.reverse).findSome? fun a => asyncAttribute? a.text :=
    (Prod.mk.inj (Option.some.inj (hdeclared.symm.trans hfind))).2
  exact ⟨hmark, fun h => hmark.trans h.findSome?_reached⟩

section Remote

/-- An attribute of one name, with a gap in front. -/
def namedAttribute (gap name : String) (arguments : List Token) (h : Syntax.IsArguments arguments) :
    WrittenAttribute where
  opening := [⟨.mark, "#", gap, false⟩, ⟨.mark, "[", "", false⟩]
  path := [⟨.word, name, "", false⟩]
  arguments := arguments
  closing := [⟨.mark, "]", "", false⟩]
  front := ⟨false, []⟩
  name := name
  fit_opening := Syntax.fit_mark.mpr ⟨_, _, _, rfl, Syntax.fit_mark.mpr ⟨_, _, _, rfl, Syntax.fit_nil.mpr rfl⟩⟩
  fit_path := Syntax.fit_word.mpr ⟨_, _, _, rfl, Syntax.fit_nil.mpr rfl⟩
  isArguments := h
  fit_closing := Syntax.fit_mark.mpr ⟨_, _, _, rfl, Syntax.fit_nil.mpr rfl⟩

/-- A name in parentheses, behind a question mark. -/
theorem isArguments_relaxed (s : String) : Syntax.IsArguments
    [⟨.mark, "(", "", false⟩, ⟨.mark, "?", "", false⟩, ⟨.word, s, "", false⟩, ⟨.mark, ")", "", false⟩] := by
  have hinner : Syntax.Balanced [.mark "?", .word s] := Syntax.balanced_of_forall
    (by simp [Syntax.Shape.IsInner, Syntax.Shape.mark, Syntax.Shape.word, Syntax.brackets, Syntax.closers])
  refine .group (o := "(") (c := ")") rfl hinner ?_
  simp [Syntax.Fit, Syntax.Shape.Fits, Syntax.Shape.mark, Syntax.Shape.word]

/-- A text behind an equals sign. -/
theorem isArguments_text (s : String) : Syntax.IsArguments
    [⟨.mark, "=", " ", false⟩, ⟨.string, s, " ", false⟩] := by
  have hsign : Syntax.Fit [⟨.mark, "=", " ", false⟩] [.mark "="] :=
    Syntax.fit_mark.mpr ⟨_, _, _, rfl, Syntax.fit_nil.mpr rfl⟩
  have htext : Syntax.Fit [⟨.string, s, " ", false⟩] [⟨.string, s, false⟩] := by simp [Syntax.Fit, Syntax.Shape.Fits]
  exact .value hsign htext (Syntax.balanced_of_forall (by simp [Syntax.Shape.IsInner])) (by simp)

/-- The name of the trait that an entry declares. -/
def declaredName? (e : Entry) : Option String :=
  match e.item with
  | .trait d => some d.name
  | _ => none

private theorem declaredName?_eq_some_iff {e : Entry} {name : String} :
    declaredName? e = some name ↔ DeclaresTrait name e := by
  rw [declaredName?, DeclaresTrait]
  split
  · rename_i d hitem
    simp [hitem]
  · rename_i hitem
    simpa using fun d hd => absurd hd (hitem d)

/-- A trait that stands alone in a source text, behind some attributes. -/
theorem standsBehind_of_tokens {source name : String} {as : List WrittenAttribute} {commented : Bool}
    (rest : List Token) (htokens : Syntax.tokens source = some (as.flatMap (·.tokens) ++ rest)) (hrest : rest ≠ [])
    (hread : ((Syntax.Reader.entry rest).map fun x => (x.1.commented, declaredName? x.1, x.2)) =
      some (commented, some name, [])) :
    StandsBehind source name as commented := by
  obtain ⟨⟨⟨commented', item⟩, left⟩, hentry, heq⟩ := Option.map_eq_some_iff.mp hread
  simp only [Prod.mk.injEq] at heq
  obtain ⟨rfl, hname, rfl⟩ := heq
  obtain ⟨d, rfl, hd⟩ := declaredName?_eq_some_iff.mp hname
  exact ⟨_, rest, [], [], d, htokens, .done _, by simp, by simp, hd,
    .entry hentry (List.length_pos_of_ne_nil hrest) (.done [])⟩

/-- A package whose file is one trait, with attributes and comments in front. -/
def remoteFiles (text : String) : Tree :=
  ⟨[(["atlas"], .directory), (["atlas", "src"], .directory), atlasFile "lib.rs" text]⟩

def remote (text : String) : Resolving Interface :=
  Interface.ofTrait (remoteFiles text) (atlas [] "/atlas/src/lib.rs") (atlas [] "/atlas/src/lib.rs") false "Remote"

/-- A file of the package has the one text. -/
theorem text_of_remote {text read : String} {p : Path} (hdecode : Text.decodeUtf8 (Text.encodeUtf8 text) = .ok text)
    (h : (remoteFiles text).readText p = .ok read) : read = text := by
  obtain ⟨place, bytes, -, hentry, hread⟩ := Files.Tree.readText_eq_ok h
  have hbytes : bytes = Text.encodeUtf8 text := by
    rw [Tree.entry?] at hentry
    split at hentry
    · cases hentry
    · obtain ⟨front, back, hsplit, -⟩ := List.lookup_eq_some_iff.mp hentry
      have hmem : (place, Files.Entry.file bytes) ∈ (remoteFiles text).entries := by
        rw [hsplit]
        simp
      simp only [remoteFiles, atlasFile, List.mem_cons, Prod.mk.injEq, Files.Entry.file.injEq, List.not_mem_nil,
        reduceCtorEq, and_false, false_or, or_false] at hmem
      exact hmem.2
  rw [hbytes, hdecode] at hread
  exact (Except.ok.inj hread).symm

/-- The trait, with a gap in front. -/
def remoteTokens (gap : String) (commented : Bool) : List Token :=
  [⟨.word, "trait", gap, commented⟩, ⟨.word, "Remote", " ", false⟩, ⟨.mark, "\x7b", " ", false⟩,
    ⟨.word, "fn", " ", false⟩, ⟨.word, "call", " ", false⟩, ⟨.mark, "(", "", false⟩, ⟨.mark, "&", "", false⟩,
    ⟨.word, "self", "", false⟩, ⟨.mark, ")", "", false⟩, ⟨.mark, ";", "", false⟩, ⟨.mark, "\x7d", " ", false⟩]

/-- The attribute by which methods are asynchronous, with an argument. -/
def relaxedAsync : WrittenAttribute := namedAttribute "" asyncName _ (isArguments_relaxed "Send")

def documentation (gap text : String) : WrittenAttribute := namedAttribute gap "doc" _ (isArguments_text text)

def relaxedText : String := "#[async_trait(?Send)]\n#[doc = \"far\"]\ntrait Remote \x7b fn call(&self); \x7d"

private theorem isPlain_relaxedAsync : relaxedAsync.IsPlain where
  argumentsGap := by simp [relaxedAsync, namedAttribute]
  closingGap := by simp [relaxedAsync, namedAttribute]
  once := by decide
  openEnd := by decide

theorem undisturbed_relaxed : Undisturbed false [relaxedAsync, documentation "\n" "\"far\""] where
  uncommented _ := by decide
  unmentioned := by decide
  plain a ha := by
    obtain rfl : relaxedAsync = a := Option.some.inj ha
    exact isPlain_relaxedAsync

theorem mark_of_relaxed :
    ∃ i r' as commented, Gives (remote relaxedText) atlasResolver i r' ∧ i.traits.map (·.name) = ["Remote"] ∧
      StandsBehind relaxedText "Remote" as commented ∧ Undisturbed commented as ∧
      ∀ t ∈ i.traits, t.asyncMark = some "#[async_trait::async_trait(?Send)]" := by
  obtain ⟨i, r', hgives, hnames⟩ := exists_gives (m := remote relaxedText) (r := atlasResolver)
    (g := fun i => i.traits.map (·.name)) (b := ["Remote"]) (by decide +kernel)
  have hbehind : StandsBehind relaxedText "Remote" [relaxedAsync, documentation "\n" "\"far\""] false :=
    standsBehind_of_tokens (remoteTokens "\n" false) (by decide +kernel) (by decide) (by decide +kernel)
  refine ⟨i, r', _, false, hgives, hnames, hbehind, undisturbed_relaxed, fun t ht => ?_⟩
  obtain ⟨w, k, s, d, text, -, htext, -, hmarks⟩ := asyncMark_of_attributes hgives t ht
  obtain rfl : text = relaxedText := text_of_remote (by decide +kernel) htext
  have hname : t.name = "Remote" := List.mem_singleton.mp (hnames ▸ List.mem_map_of_mem ht)
  rw [(hmarks _ false (hname ▸ hbehind)).2 undisturbed_relaxed]
  decide

/-- The attribute with documentation in the form of a comment behind it. -/
def commentedText : String := "#[async_trait(?Send)]\n/// Far.\ntrait Remote \x7b fn call(&self); \x7d"

/-- Documentation that mentions the attribute. -/
def describedText : String := "#[doc = \"no async_trait\"]\ntrait Remote \x7b fn call(&self); \x7d"

/-- A comment hides the attribute from the search, and another attribute that mentions it is taken for it. -/
theorem asyncMark_disturbed :
    (∃ i r' as, Gives (remote commentedText) atlasResolver i r' ∧ StandsBehind commentedText "Remote" as true ∧
      (∃ a ∈ as, a.isAsync = true) ∧
      i.traits.map (fun t => (t.name, t.asyncMark)) = [("Remote", none)]) ∧
    ∃ i r' as, Gives (remote describedText) atlasResolver i r' ∧ StandsBehind describedText "Remote" as false ∧
      (∀ a ∈ as, a.isAsync = false) ∧
      i.traits.map (fun t => (t.name, t.asyncMark)) = [("Remote", some "#[async_trait::async_trait\"]")] := by
  constructor
  · obtain ⟨i, r', hgives, hmarks⟩ := exists_gives (m := remote commentedText) (r := atlasResolver)
      (g := fun i => i.traits.map fun t => (t.name, t.asyncMark)) (b := [("Remote", none)]) (by decide +kernel)
    have hbehind : StandsBehind commentedText "Remote" [relaxedAsync] true :=
      standsBehind_of_tokens (remoteTokens "\n/// Far.\n" true) (by decide +kernel) (by decide) (by decide +kernel)
    exact ⟨i, r', _, hgives, hbehind, ⟨relaxedAsync, by simp, rfl⟩, hmarks⟩
  · obtain ⟨i, r', hgives, hmarks⟩ := exists_gives (m := remote describedText) (r := atlasResolver)
      (g := fun i => i.traits.map fun t => (t.name, t.asyncMark))
      (b := [("Remote", some "#[async_trait::async_trait\"]")]) (by decide +kernel)
    have hbehind : StandsBehind describedText "Remote" [documentation "" "\"no async_trait\""] false :=
      standsBehind_of_tokens (remoteTokens "\n" false) (by decide +kernel) (by decide) (by decide +kernel)
    exact ⟨i, r', _, hgives, hbehind, by decide, hmarks⟩

end Remote

end TraitMock
