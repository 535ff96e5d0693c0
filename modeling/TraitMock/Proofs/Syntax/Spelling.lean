import TraitMock.Syntax.Token
import Mathlib.Data.List.Forall2

namespace TraitMock.Syntax

/-- What readers look at in a token. -/
structure Shape where
  kind : TokenKind
  text : String
  /-- Whether nothing may stand between the token and the one in front. -/
  glued : Bool
  deriving DecidableEq, Repr

namespace Shape

def word (s : String) : Shape := ⟨.word, s, false⟩

def mark (s : String) : Shape := ⟨.mark, s, false⟩

/-- A token has the shape. -/
def Fits (s : Shape) (t : Token) : Prop := t.kind = s.kind ∧ t.text = s.text ∧ (s.glued = true → t.gap = "")

instance (s : Shape) (t : Token) : Decidable (s.Fits t) := inferInstanceAs (Decidable (_ ∧ _ ∧ _))

end Shape

/-- Tokens have the shapes, one by one. -/
def Fit (ts : List Token) (ss : List Shape) : Prop := List.Forall₂ (fun t s => s.Fits t) ts ss

instance (ts : List Token) (ss : List Shape) : Decidable (Fit ts ss) :=
  inferInstanceAs (Decidable (List.Forall₂ _ ts ss))

@[simp] theorem fit_nil {ts : List Token} : Fit ts [] ↔ ts = [] := List.forall₂_nil_right_iff

theorem fit_cons {ts : List Token} {s : Shape} {ss : List Shape} :
    Fit ts (s :: ss) ↔ ∃ t rest, s.Fits t ∧ Fit rest ss ∧ ts = t :: rest := List.forall₂_cons_right_iff

theorem fit_shape {kind : TokenKind} {text : String} {ts : List Token} {ss : List Shape} :
    Fit ts (⟨kind, text, false⟩ :: ss) ↔
      ∃ gap commented rest, ts = ⟨kind, text, gap, commented⟩ :: rest ∧ Fit rest ss := by
  rw [fit_cons]
  constructor
  · rintro ⟨⟨kind', text', gap, commented⟩, rest, ⟨hkind, htext, _⟩, hrest, rfl⟩
    obtain rfl : kind' = kind := hkind
    obtain rfl : text' = text := htext
    exact ⟨gap, commented, rest, rfl, hrest⟩
  · rintro ⟨gap, commented, rest, rfl, hrest⟩
    exact ⟨_, rest, ⟨rfl, rfl, by simp⟩, hrest, rfl⟩

theorem fit_mark {m : String} {ts : List Token} {ss : List Shape} :
    Fit ts (.mark m :: ss) ↔ ∃ gap commented rest, ts = ⟨.mark, m, gap, commented⟩ :: rest ∧ Fit rest ss := fit_shape

theorem fit_word {w : String} {ts : List Token} {ss : List Shape} :
    Fit ts (.word w :: ss) ↔ ∃ gap commented rest, ts = ⟨.word, w, gap, commented⟩ :: rest ∧ Fit rest ss := fit_shape

theorem fit_append {ts : List Token} {ss us : List Shape} :
    Fit ts (ss ++ us) ↔ ∃ front back, Fit front ss ∧ Fit back us ∧ ts = front ++ back := by
  induction ss generalizing ts with
  | nil => simp
  | cons s ss ih =>
    rw [List.cons_append, fit_cons]
    constructor
    · rintro ⟨t, rest, ht, hrest, rfl⟩
      obtain ⟨front, back, hfront, hback, rfl⟩ := ih.mp hrest
      exact ⟨t :: front, back, fit_cons.mpr ⟨t, front, ht, hfront, rfl⟩, hback, rfl⟩
    · rintro ⟨front, back, hfront, hback, rfl⟩
      obtain ⟨t, rest, ht, hrest, rfl⟩ := fit_cons.mp hfront
      exact ⟨t, rest ++ back, ht, ih.mpr ⟨rest, back, hrest, hback, rfl⟩, rfl⟩

theorem Fit.length_eq {ts : List Token} {ss : List Shape} (h : Fit ts ss) : ts.length = ss.length :=
  List.Forall₂.length_eq h

section Gaps

theorem readGap_cons {c : Char} (h : c ≠ '/') (rest : List Char) :
    readGap .between (c :: rest) =
      if isSpace c then (readGap .between rest).map (Gap.cons c) else some ⟨[], false, c :: rest⟩ := by
  rw [readGap.eq_def]
  split <;> simp_all

private theorem readGap_line_cons {c : Char} (h : c ≠ '\n') (rest : List Char) :
    readGap .line (c :: rest) = (readGap .line rest).map (Gap.cons c) := by
  rw [readGap.eq_def]
  split <;> simp_all

private theorem readGap_line {cs : List Char} (h : '\n' ∉ cs) (more : List Char) :
    readGap .line (cs ++ '\n' :: more) =
      (readGap .between more).map fun x => ⟨cs ++ '\n' :: x.chars, x.commented, x.rest⟩ := by
  induction cs with
  | nil =>
    rw [List.nil_append, readGap]
    rfl
  | cons c rest ih =>
    obtain ⟨hc, hrest⟩ := not_or.mp (List.mem_cons.not.mp h)
    rw [List.cons_append, readGap_line_cons (Ne.symm hc), ih hrest, Option.map_map]
    rfl

/-- Blanks and comments, which may stand in front of any text. -/
def IsGap (g : List Char) : Prop :=
  ∀ more, ∃ commented, readGap .between (g ++ more) =
    (readGap .between more).map fun x => ⟨g ++ x.chars, commented || x.commented, x.rest⟩

theorem isGap_nil : IsGap [] := fun more => ⟨false, by simp⟩

theorem IsGap.append {g h : List Char} (hg : IsGap g) (hh : IsGap h) : IsGap (g ++ h) := by
  intro more
  obtain ⟨c, hc⟩ := hg (h ++ more)
  obtain ⟨d, hd⟩ := hh more
  refine ⟨c || d, ?_⟩
  rw [List.append_assoc, hc, hd, Option.map_map]
  simp [Function.comp_def, Bool.or_assoc]

theorem isGap_blank {c : Char} (h : isSpace c = true) : IsGap [c] := by
  intro more
  have hslash : c ≠ '/' := by
    rintro rfl
    exact absurd h (by decide)
  refine ⟨false, ?_⟩
  rw [List.singleton_append, readGap_cons hslash, if_pos h]
  simp only [Bool.false_or]
  rfl

theorem isGap_blanks {cs : List Char} (h : ∀ c ∈ cs, isSpace c = true) : IsGap cs := by
  induction cs with
  | nil => exact isGap_nil
  | cons c rest ih =>
    obtain ⟨hc, hrest⟩ := List.forall_mem_cons.mp h
    exact (isGap_blank hc).append (ih hrest)

/-- A comment up to the end of its line. -/
theorem isGap_comment {cs : List Char} (h : '\n' ∉ cs) : IsGap ('/' :: '/' :: (cs ++ ['\n'])) := by
  intro more
  refine ⟨true, ?_⟩
  have hchars : '/' :: '/' :: (cs ++ ['\n']) ++ more = '/' :: '/' :: (cs ++ '\n' :: more) := by simp
  rw [hchars, readGap, readGap_line h, Option.map_map]
  simp [Function.comp_def, Gap.comment]

end Gaps

/-- Reading tokens from the front of a text, up to what is left. -/
inductive Reads : List Char → List Token → List Char → Prop
  | done (cs : List Char) : Reads cs [] cs
  | token {cs mid rest text : List Char} {g : Gap} {kind : TokenKind} {ts : List Token}
      (hgap : readGap .between cs = some g) (hne : g.rest ≠ []) (htoken : readToken g.rest = some (kind, text, mid))
      (hrest : Reads mid ts rest) :
      Reads cs (⟨kind, String.ofList text, String.ofList g.chars, g.commented⟩ :: ts) rest

namespace Reads

variable {cs mid rest : List Char} {ts us : List Token}

theorem trans (h : Reads cs ts mid) (h' : Reads mid us rest) : Reads cs (ts ++ us) rest := by
  induction h with
  | done => exact h'
  | token hgap hne htoken _ ih => exact .token hgap hne htoken (ih h')

/-- What was read is all there is if only a gap is left. -/
theorem readTokens_eq (h : Reads cs ts rest) (hend : IsGap rest) {n : Nat} (hn : ts.length < n) :
    readTokens n cs = some ts := by
  induction h generalizing n with
  | done cs =>
    obtain ⟨m, rfl⟩ := Nat.exists_eq_add_of_lt hn
    obtain ⟨commented, hgap⟩ := hend []
    rw [List.append_nil] at hgap
    rw [readTokens, hgap]
    rfl
  | token hgap hne htoken _ ih =>
    cases n with
    | zero => cases hn
    | succ n =>
      rw [readTokens, hgap]
      simp only [if_neg hne, htoken]
      rw [ih hend (Nat.lt_of_succ_lt_succ hn)]
      rfl

/-- A gap in front only becomes part of the gap in front of the first token. -/
theorem behind_gap {ss : List Shape} {g h : List Char} (hreads : Reads cs ts (h ++ rest)) (hfit : Fit ts ss)
    (hloose : ∀ s ∈ ss.head?, s.glued = false) (hg : IsGap g) (hh : IsGap h) :
    ∃ us k, Fit us ss ∧ IsGap k ∧ Reads (g ++ cs) us (k ++ rest) := by
  cases hreads with
  | done =>
    refine ⟨[], g ++ h, hfit, hg.append hh, ?_⟩
    rw [← List.append_assoc]
    exact .done _
  | token hgap hne htoken hrest =>
    cases ss with
    | nil => simp at hfit
    | cons s ss =>
      obtain ⟨t, ts', ⟨hkind, htext, _⟩, hfit', hts⟩ := fit_cons.mp hfit
      obtain ⟨rfl, rfl⟩ := List.cons.inj hts
      obtain ⟨commented, hgap'⟩ := hg cs
      rw [hgap, Option.map_some] at hgap'
      have hs : s.glued = false := hloose s rfl
      have hmoved := Reads.token hgap' hne htoken hrest
      refine ⟨_, h, fit_cons.mpr ⟨_, _, ?_, hfit', rfl⟩, hh, hmoved⟩
      exact ⟨hkind, htext, by simp [hs]⟩

end Reads

/-- A text spells tokens if a text with the property `p` stands behind it. A gap may be left. -/
structure SpellsBefore (p : List Char → Prop) (s : String) (ss : List Shape) : Prop where
  length_le : ss.length ≤ s.toList.length
  loose : ∀ x ∈ ss.head?, x.glued = false
  reads : ∀ more, p more → ∃ ts g, Fit ts ss ∧ IsGap g ∧ Reads (s.toList ++ more) ts (g ++ more)

/-- Whether a text does not run into a name, a lifetime or a number in front of it. -/
def separates : List Char → Bool
  | [] => true
  | ['.'] => false
  | '.' :: d :: _ => !d.isDigit
  | c :: _ => !Text.isNameContinue c && !(['"', '\'', '#'].contains c)

theorem separates_append {cs : List Char} (h : separates cs = true) (hne : cs ≠ []) (more : List Char) :
    separates (cs ++ more) = true := by
  match cs with
  | [] => exact absurd rfl hne
  | ['.'] => simp [separates] at h
  | '.' :: d :: rest => exact h
  | c :: rest =>
    by_cases hc : c = '.'
    · subst hc
      cases rest with
      | nil => simp [separates] at h
      | cons d rest => exact h
    · simpa [separates, hc] using h

/-- A text spells tokens wherever what stands behind it does not run into them. -/
abbrev Spells : String → List Shape → Prop := SpellsBefore (separates · = true)

/-- A text spells tokens whatever stands behind it. -/
abbrev Closes : String → List Shape → Prop := SpellsBefore fun _ => True

namespace SpellsBefore

variable {p q : List Char → Prop} {a b : String} {ss us : List Shape}

theorem weaken (h : SpellsBefore p a ss) (hp : ∀ more, q more → p more) : SpellsBefore q a ss :=
  ⟨h.length_le, h.loose, fun more hmore => h.reads more (hp more hmore)⟩

/-- A text that ends by itself is spelled also where something separates it from what follows. -/
theorem spells (h : Closes a ss) : Spells a ss := h.weaken fun _ _ => trivial

theorem of_isGap (h : IsGap a.toList) : SpellsBefore p a [] :=
  ⟨Nat.zero_le _, by simp, fun _ _ => ⟨[], a.toList, fit_nil.mpr rfl, h, .done _⟩⟩

theorem append (ha : SpellsBefore p a ss) (hb : SpellsBefore q b us) (hp : ∀ more, q more → p (b.toList ++ more)) :
    SpellsBefore q (a ++ b) (ss ++ us) := by
  refine ⟨?_, ?_, fun more hmore => ?_⟩
  · have hlengtha := ha.length_le
    have hlengthb := hb.length_le
    rw [String.toList_append, List.length_append, List.length_append]
    omega
  · cases ss with
    | nil => exact hb.loose
    | cons s ss => exact ha.loose
  · obtain ⟨ts, g, hfit, hgap, hreads⟩ := ha.reads _ (hp more hmore)
    obtain ⟨vs, g', hfit', hgap', hreads'⟩ := hb.reads more hmore
    obtain ⟨ws, k, hfitw, hgapk, hreadsw⟩ := hreads'.behind_gap hfit' hb.loose hgap hgap'
    refine ⟨ts ++ ws, k, fit_append.mpr ⟨ts, ws, hfit, hfitw, rfl⟩, hgapk, ?_⟩
    rw [String.toList_append, List.append_assoc]
    exact hreads.trans hreadsw

end SpellsBefore

end TraitMock.Syntax
