import TraitMock.Proofs.Syntax.ImportFiles
import TraitMock.Proofs.Syntax.Pieces

namespace TraitMock.Syntax

section Tight

/-- The token of a shape with nothing in front of it. -/
def Shape.tight (x : Shape) : Token := ⟨x.kind, x.text, "", false⟩

/-- A text spells tokens that nothing stands between, if a text with the property `p` stands behind it. -/
structure SpellsTight (p : List Char → Prop) (s : String) (ss : List Shape) : Prop where
  length_le : ss.length ≤ s.toList.length
  reads : ∀ more, p more → Reads (s.toList ++ more) (ss.map Shape.tight) more

/-- The same shapes, of which all but the first follow at once. -/
def glued : List Shape → List Shape
  | [] => []
  | x :: rest => x :: rest.map fun y => { y with glued := true }

variable {p q : List Char → Prop} {a b s : String} {ss us : List Shape}

private theorem spellsTight_nil : SpellsTight p "" [] := ⟨Nat.zero_le _, fun more _ => .done more⟩

theorem SpellsTight.append (ha : SpellsTight p a ss) (hb : SpellsTight q b us)
    (hp : ∀ more, q more → p (b.toList ++ more)) : SpellsTight q (a ++ b) (ss ++ us) := by
  refine ⟨?_, fun more hmore => ?_⟩
  · have hlengtha := ha.length_le
    have hlengthb := hb.length_le
    rw [String.toList_append, List.length_append, List.length_append]
    omega
  · rw [String.toList_append, List.append_assoc, List.map_append]
    exact (ha.reads _ (hp more hmore)).trans (hb.reads more hmore)

theorem spellsTight_of_readToken {kind : TokenKind} {c : Char} (hhead : s.toList.head? = some c)
    (hc : isSpace c = false ∧ c ≠ '/')
    (hread : ∀ more, p more → readToken (s.toList ++ more) = some (kind, s.toList, more)) :
    SpellsTight p s [⟨kind, s, false⟩] := by
  obtain ⟨rest, hs⟩ := List.head?_eq_some_iff.mp hhead
  refine ⟨by simp [hs], fun more hmore => ?_⟩
  have hgap : readGap .between (s.toList ++ more) = some ⟨[], false, s.toList ++ more⟩ := by
    rw [hs, List.cons_append, readGap_cons hc.2, hc.1]
    rfl
  have hreads := Reads.token hgap (by simp [hs]) (hread more hmore) (.done more)
  simpa [Shape.tight] using hreads

theorem spellsTight_word (h : IsWord s) : SpellsTight (separates · = true) s [.word s] := by
  rcases h with hplain | ⟨w, hs, hplain⟩
  · obtain ⟨c, hc, hstart⟩ := isPlain_head hplain
    exact spellsTight_of_readToken hc hstart fun more hmore => readToken_plain hplain hmore
  · refine spellsTight_of_readToken (c := 'r') (by simp [hs]) (by decide) fun more hmore => ?_
    rw [hs]
    exact readToken_raw hplain hmore

theorem spellsTight_colons : SpellsTight (fun _ => True) "::" [.mark "::"] :=
  spellsTight_of_readToken (c := ':') rfl (by decide) fun _ _ => readToken_mark rfl

private theorem spellsTight_star : SpellsTight (fun _ => True) "*" [.mark "*"] :=
  spellsTight_of_readToken (c := '*') rfl (by decide) fun _ _ => readToken_mark rfl

/-- Tokens that nothing stands between are spelled wherever the text stands. -/
theorem SpellsTight.spells (h : SpellsTight p s ss) (hloose : ∀ x ∈ ss, x.glued = false) :
    SpellsBefore p s (glued ss) := by
  have hlength : (glued ss).length = ss.length := by
    cases ss <;> simp [glued]
  refine ⟨hlength ▸ h.length_le, ?_, fun more hmore => ⟨_, [], ?_, isGap_nil, h.reads more hmore⟩⟩
  · cases ss with
    | nil => simp [glued]
    | cons x rest => simpa [glued] using hloose x List.mem_cons_self
  · cases ss with
    | nil => exact fit_nil.mpr rfl
    | cons x rest =>
      have hrest : Fit (rest.map Shape.tight) (rest.map fun y => { y with glued := true }) := by
        rw [Fit, List.forall₂_map_left_iff, List.forall₂_map_right_iff]
        exact List.forall₂_same.mpr fun y _ => ⟨rfl, rfl, fun _ => rfl⟩
      exact fit_cons.mpr ⟨_, _, ⟨rfl, rfl, fun _ => rfl⟩, hrest, rfl⟩

/-- Nothing stands between tokens of glued shapes. -/
theorem fit_of_glued {ts : List Token} (h : Fit ts (glued ss)) : Fit ts ss ∧ Unbroken ts := by
  cases ss with
  | nil =>
    obtain rfl := fit_nil.mp h
    exact ⟨fit_nil.mpr rfl, by simp [Unbroken]⟩
  | cons x rest =>
    obtain ⟨t, more, ht, hmore, rfl⟩ := fit_cons.mp h
    have htight : List.Forall₂ (fun t y => Shape.Fits y t ∧ t.gap = "") more rest := by
      rw [Fit, List.forall₂_map_right_iff] at hmore
      exact hmore.imp fun t y hfits => ⟨⟨hfits.1, hfits.2.1, fun _ => hfits.2.2 rfl⟩, hfits.2.2 rfl⟩
    have hgaps : ∀ u ∈ more, u.gap = "" := by
      clear h hmore
      induction htight with
      | nil => simp
      | cons hu _ ih => exact List.forall_mem_cons.mpr ⟨hu.2, ih⟩
    refine ⟨fit_cons.mpr ⟨t, more, ht, htight.imp fun _ _ hu => hu.1, rfl⟩, fun u hu c hc => ?_⟩
    rw [hgaps u hu] at hc
    cases hc

end Tight

section Text

theorem closes_text {s : String} {ss : List Shape} (h : piece (s.toList.length + 1) s.toList = some ss)
    (hends : endsName s.toList = false) : Closes s ss := by
  simpa using closes_piece h hends

theorem spells_literal {s : String} {ss : List Shape} (h : piece (s.toList.length + 1) s.toList = some ss) :
    Spells s ss := by
  simpa using spells_piece h

/-- The text of a path in front of something else. -/
def ImportPath.leadingText (p : ImportPath) : String := String.join (p.leading.map (·.text))

def renamingText : Option String → String
  | none => ""
  | some a => " as " ++ a

mutual

def ImportExpr.text : ImportExpr → String
  | .item p last newName => p.leadingText ++ last ++ renamingText newName
  | .itself newName => "self" ++ renamingText newName
  | .glob p => p.leadingText ++ "*"
  | .group p trees => p.leadingText ++ "\x7b" ++ listText trees ++ "\x7d"

def listText : List ImportExpr → String
  | [] => ""
  | t :: rest => t.text ++ moreText rest

def moreText : List ImportExpr → String
  | [] => ""
  | t :: rest => ", " ++ t.text ++ moreText rest

end

mutual

def ImportExpr.shapes : ImportExpr → List Shape
  | .item p last newName => glued (p.leading ++ [.word last]) ++ renamingShapes newName
  | .itself newName => .word "self" :: renamingShapes newName
  | .glob p => glued (p.leading ++ [.mark "*"])
  | .group p trees => glued p.leading ++ [.mark "\x7b"] ++ listShapes trees ++ [.mark "\x7d"]

def listShapes : List ImportExpr → List Shape
  | [] => []
  | t :: rest => t.shapes ++ moreShapes rest

def moreShapes : List ImportExpr → List Shape
  | [] => []
  | t :: rest => [.mark ","] ++ t.shapes ++ moreShapes rest

end

mutual

/-- Tokens of the shapes of a tree are its tokens. -/
theorem written_of_fit : (t : ImportExpr) → ∀ ts, Fit ts t.shapes → t.Written ts
  | .item p last newName => fun ts h => by
    obtain ⟨path, more, hpath, hmore, rfl⟩ := fit_append.mp h
    obtain ⟨hfit, hunbroken⟩ := fit_of_glued hpath
    exact ⟨path, more, rfl, hfit, hunbroken, hmore⟩
  | .itself newName => fun ts h => h
  | .glob p => fun ts h => fit_of_glued h
  | .group p trees => fun ts h => by
    obtain ⟨opened, closing, hopened, hclosing, rfl⟩ := fit_append.mp h
    obtain ⟨start, inner, hstart, hinner, rfl⟩ := fit_append.mp hopened
    obtain ⟨path, opening, hpath, hopening, rfl⟩ := fit_append.mp hstart
    obtain ⟨hfit, hunbroken⟩ := fit_of_glued hpath
    refine ⟨path, opening, inner, closing, by simp, hfit, fun t ht => hunbroken t ?_, hopening,
      listWritten_of_fit trees inner hinner, .inl hclosing⟩
    rw [List.tail_dropLast] at ht
    exact List.mem_of_mem_dropLast ht

theorem listWritten_of_fit : (trees : List ImportExpr) → ∀ ts, Fit ts (listShapes trees) → ListWritten trees ts
  | [] => fun ts h => fit_nil.mp h
  | t :: rest => fun ts h => by
    obtain ⟨front, back, hfront, hback, rfl⟩ := fit_append.mp h
    exact ⟨front, back, rfl, written_of_fit t front hfront, moreWritten_of_fit rest back hback⟩

theorem moreWritten_of_fit : (trees : List ImportExpr) → ∀ ts, Fit ts (moreShapes trees) → MoreWritten trees ts
  | [] => fun ts h => fit_nil.mp h
  | t :: rest => fun ts h => by
    obtain ⟨front, back, hfront, hback, rfl⟩ := fit_append.mp h
    obtain ⟨comma, first, hcomma, hfirst, rfl⟩ := fit_append.mp hfront
    exact ⟨comma, first, back, by simp, hcomma, written_of_fit t first hfirst, moreWritten_of_fit rest back hback⟩

end

theorem leading_loose (p : ImportPath) : ∀ x ∈ p.leading, x.glued = false := by
  intro x hx
  rcases mem_leading hx with rfl | ⟨s, _, rfl⟩ <;> rfl

theorem spellsTight_leading {p : ImportPath} (h : ∀ s ∈ p.segments, IsWord s) :
    SpellsTight (fun _ => True) p.leadingText p.leading := by
  have hsegments : ∀ segs : List String, (∀ s ∈ segs, IsWord s) → SpellsTight (fun _ => True)
      (String.join ((segs.flatMap fun s => [Shape.word s, .mark "::"]).map (·.text)))
      (segs.flatMap fun s => [Shape.word s, .mark "::"]) := by
    intro segs hsegs
    induction segs with
    | nil => exact spellsTight_nil
    | cons s rest ih =>
      obtain ⟨hs, hrest⟩ := List.forall_mem_cons.mp hsegs
      have hfirst := (spellsTight_word hs).append spellsTight_colons fun more _ => rfl
      have hall := hfirst.append (ih hrest) fun _ _ => trivial
      simpa [Shape.word, Shape.mark, String.join_cons, String.append_assoc] using hall
  have hbehind := hsegments p.segments h
  unfold ImportPath.leadingText ImportPath.leading
  split
  · have hall := spellsTight_colons.append hbehind fun _ _ => trivial
    simpa [Shape.mark, String.join_cons] using hall
  · simpa using hbehind

theorem spells_renaming {newName : Option String} (h : ∀ a ∈ newName, IsWord a) :
    Spells (renamingText newName) (renamingShapes newName) := by
  cases newName with
  | none => exact .of_isGap isGap_nil
  | some a =>
    have has : Closes " as " [.word "as"] := closes_text (by decide) (by decide)
    exact has.append (spells_word (h a rfl)) fun _ _ => trivial

theorem separates_renaming (newName : Option String) {more : List Char} (h : separates more = true) :
    separates ((renamingText newName).toList ++ more) = true := by
  cases newName with
  | none => exact h
  | some a => rw [renamingText, String.toList_append, List.append_assoc]; rfl

theorem separates_moreText (trees : List ImportExpr) {more : List Char} (h : separates more = true) :
    separates ((moreText trees).toList ++ more) = true := by
  cases trees with
  | nil => exact h
  | cons t rest => rw [moreText, String.toList_append, String.toList_append, List.append_assoc, List.append_assoc]; rfl

mutual

/-- The text of a tree spells its tokens. -/
theorem spells_text : (t : ImportExpr) → ∀ front, t.IsValid front → Spells t.text t.shapes
  | .item p last newName => fun front hvalid => by
    obtain ⟨hwords, _, hname⟩ := hvalid
    have hleading := spellsTight_leading (p := p) fun s hs => hwords s (by simp [hs])
    have hpath := (hleading.append
      (spellsTight_word (hwords last (by simp))) fun _ _ => trivial).spells (by
        rw [List.forall_mem_append]
        exact ⟨leading_loose p, by simp [Shape.word]⟩)
    exact hpath.append (spells_renaming hname) fun more hmore => separates_renaming newName hmore
  | .itself newName => fun front hvalid => by
    have hself := spells_word (s := "self") (.inl (by decide))
    exact hself.append (spells_renaming hvalid.2) fun more hmore => separates_renaming newName hmore
  | .glob p => fun front hvalid => by
    have hpath := ((spellsTight_leading hvalid).append spellsTight_star fun _ _ => trivial).spells (by
      rw [List.forall_mem_append]
      exact ⟨leading_loose p, by simp [Shape.mark]⟩)
    exact hpath.weaken fun _ _ => trivial
  | .group p trees => fun front hvalid => by
    have hpath := (spellsTight_leading hvalid.1).spells (leading_loose p)
    have hopening : Closes "\x7b" [.mark "\x7b"] := closes_text (by decide) (by decide)
    have hclosing : Closes "\x7d" [.mark "\x7d"] := closes_text (by decide) (by decide)
    have hlist := spells_listText trees _ hvalid.2
    have hall := ((hpath.append hopening fun _ _ => trivial).append hlist fun _ _ => trivial).append hclosing
      fun _ _ => rfl
    exact hall.weaken fun _ _ => trivial

theorem spells_listText : (trees : List ImportExpr) → ∀ front, AllValid front trees →
    Spells (listText trees) (listShapes trees)
  | [] => fun _ _ => .of_isGap isGap_nil
  | t :: rest => fun front hvalid =>
    (spells_text t front hvalid.1).append (spells_moreText rest front hvalid.2) fun _ hmore =>
      separates_moreText rest hmore

theorem spells_moreText : (trees : List ImportExpr) → ∀ front, AllValid front trees →
    Spells (moreText trees) (moreShapes trees)
  | [] => fun _ _ => .of_isGap isGap_nil
  | t :: rest => fun front hvalid => by
    have hcomma : Closes ", " [.mark ","] := closes_text (by decide) (by decide)
    have hfirst := hcomma.append (spells_text t front hvalid.1) fun _ _ => trivial
    exact hfirst.append (spells_moreText rest front hvalid.2) fun _ hmore => separates_moreText rest hmore

end

end Text

section Files

/-- The declaration that imports a tree. -/
def ImportExpr.declText (t : ImportExpr) : String := "use " ++ t.text ++ ";"

def ImportExpr.declShapes (t : ImportExpr) : List Shape := [.word "use"] ++ t.shapes ++ [.mark ";"]

private theorem closes_declText {t : ImportExpr} (h : t.IsValid []) : Closes t.declText t.declShapes := by
  have huse : Closes "use " [.word "use"] := closes_text (by decide) (by decide)
  have hstop : Closes ";" [.mark ";"] := closes_text (by decide) (by decide)
  exact (huse.append (spells_text t [] h) fun _ _ => trivial).append hstop fun _ _ => rfl

/-- Declarations of trees, each on a line of its own. -/
def declLines (trees : List ImportExpr) : String := String.join (trees.map fun t => t.declText ++ "\n")

theorem closes_declLines {trees : List ImportExpr} (h : AllValid [] trees) :
    Closes (declLines trees) (trees.flatMap ImportExpr.declShapes) := by
  induction trees with
  | nil => exact .of_isGap isGap_nil
  | cons t rest ih =>
    have hend : Closes "\n" [] := .of_isGap (isGap_blank (by decide))
    have hline := (closes_declText h.1).append hend fun _ _ => trivial
    have hall := hline.append (ih h.2) fun _ _ => trivial
    rw [List.append_nil] at hall
    have hlines : declLines (t :: rest) = t.declText ++ "\n" ++ declLines rest := String.join_cons
    rw [hlines, List.flatMap_cons]
    exact hall

theorem declWritten_of_fit {t : ImportExpr} {ts : List Token} (hfit : Fit ts t.declShapes) : DeclWritten t ts := by
  obtain ⟨start, stop, hstart, hstop, rfl⟩ := fit_append.mp hfit
  obtain ⟨use, tree, huse, htree, rfl⟩ := fit_append.mp hstart
  exact ⟨[], [], use, tree, stop, by simp, .inherited, fit_nil.mpr rfl, huse, written_of_fit t tree htree, hstop⟩

theorem fileWritten_of_fit {trees : List ImportExpr} (h : AllValid [] trees) {ts : List Token}
    (hfit : Fit ts (trees.flatMap ImportExpr.declShapes)) : FileWritten trees ts := by
  induction trees generalizing ts with
  | nil =>
    obtain rfl := fit_nil.mp hfit
    exact .done
  | cons t rest ih =>
    obtain ⟨front, back, hfront, hback, rfl⟩ := fit_append.mp hfit
    exact .decl h.1 (declWritten_of_fit hfront) (ih h.2 hback)

/-- A text that spells tokens has them, if its first line names no interpreter. -/
theorem tokens_of_closes {s : String} {ss : List Shape} (h : Closes s ss)
    (hskip : skipInterpreter s.toList = s.toList) : ∃ ts, tokens s = some ts ∧ Fit ts ss := by
  obtain ⟨ts, g, hfit, hgap, hreads⟩ := h.reads [] trivial
  rw [List.append_nil, List.append_nil] at hreads
  have hlength := h.length_le
  rw [← hfit.length_eq] at hlength
  refine ⟨ts, ?_, hfit⟩
  rw [tokens, hskip]
  exact hreads.readTokens_eq hgap (by omega)

/-- Texts that do not begin with a number sign name no interpreter. -/
theorem skipInterpreter_eq_self {cs : List Char} (h : cs.head? ≠ some '#') : skipInterpreter cs = cs := by
  unfold skipInterpreter
  split
  · simp at h
  · rfl

end Files

end TraitMock.Syntax
