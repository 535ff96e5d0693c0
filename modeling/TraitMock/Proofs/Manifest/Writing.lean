import TraitMock.Manifest.Table
import TraitMock.Proofs.Text.Blanks
import TraitMock.Proofs.Text.Trimming

namespace TraitMock.Manifest

open Text (isBlank trimChars linesOf dropReturn)

/-- Blanks within a line. -/
structure Gap where
  chars : List Char
  blank : ∀ c ∈ chars, c = ' ' ∨ c = '\t'

/-- A comment reaches to the end of its line. -/
structure Comment where
  text : List Char
  oneLine : '\n' ∉ text

inductive LineEnd where
  | feed
  | returnAndFeed

/-- The quotation marks of strings with escapes and of strings without. -/
inductive Quote where
  | basic
  | literal
  deriving DecidableEq

def Quote.mark : Quote → Char
  | .basic => '"'
  | .literal => '\''

/-- The characters of keys that are written without quotation marks. -/
def isKeyChar (c : Char) : Bool := c.isAlphanum || c == '_' || c == '-'

/-- A key without quotation marks. -/
structure BareKey where
  chars : List Char
  nonempty : chars ≠ []
  plain : ∀ c ∈ chars, isKeyChar c = true

def Comment.chars (c : Comment) : List Char := '#' :: c.text

/-- The comment of a line that may have one. -/
def commentChars (comment : Option Comment) : List Char := (comment.map Comment.chars).getD []

def LineEnd.chars : LineEnd → List Char
  | .feed => ['\n']
  | .returnAndFeed => ['\r', '\n']

def noGap : Gap := ⟨[], by simp⟩

def oneBlank : Gap := ⟨[' '], by simp⟩

/-- A string between its quotation marks. -/
def quoted (q : Quote) (cs : List Char) : List Char := q.mark :: (cs ++ [q.mark])

def BareKey.text (key : BareKey) : String := String.ofList key.chars

theorem Gap.isBlank (g : Gap) : ∀ c ∈ g.chars, isBlank c = true := by
  intro c hc
  rcases g.blank c hc with rfl | rfl <;> decide

theorem Gap.not_mem {c : Char} (g : Gap) (hblank : c ≠ ' ') (htab : c ≠ '\t') : c ∉ g.chars := fun hc =>
  (g.blank c hc).elim hblank htab

theorem not_mem_of_blanks {cs : List Char} {c : Char} (h : ∀ b ∈ cs, Text.isBlank b = true)
    (hc : Text.isBlank c = false) : c ∉ cs := fun hmem =>
  Bool.false_ne_true (hc.symm.trans (h c hmem))

theorem not_mem_commentChars (comment : Option Comment) : '\n' ∉ commentChars comment := by
  cases comment with
  | none => exact List.not_mem_nil
  | some c => exact List.not_mem_cons_of_ne_of_not_mem (by decide) c.oneLine

theorem Quote.isBlank_mark (q : Quote) : isBlank q.mark = false := by cases q <;> decide

theorem isBlank_of_isKeyChar {c : Char} (h : isKeyChar c = true) : isBlank c = false := by
  simp only [isKeyChar, Bool.or_eq_true, beq_iff_eq] at h
  rcases h with (halphanum | rfl) | rfl
  · exact Text.isBlank_of_isNameContinue (Syntax.isNameContinue_of_isAlphanum halphanum)
  · decide
  · decide

theorem BareKey.not_mem {c : Char} (key : BareKey) (h : isKeyChar c = false) : c ∉ key.chars := fun hc =>
  Bool.false_ne_true (h.symm.trans (key.plain c hc))

theorem BareKey.isBlank (key : BareKey) : ∀ c ∈ key.chars, isBlank c = false := fun c hc =>
  isBlank_of_isKeyChar (key.plain c hc)

theorem BareKey.trimChars (key : BareKey) : trimChars key.chars = key.chars :=
  Text.trimChars_eq_self key.isBlank

@[simp]
theorem BareKey.toList_text (key : BareKey) : key.text.toList = key.chars := String.toList_ofList

theorem cutAt_append_of_not_mem {sep : Char} {front : List Char} (h : sep ∉ front) (rest : List Char) :
    cutAt sep (front ++ rest) = (cutAt sep rest).map fun parts => (front ++ parts.1, parts.2) := by
  induction front with
  | nil => cases hcut : cutAt sep rest <;> simp [hcut]
  | cons c front ih =>
    obtain ⟨hc, hfront⟩ := not_or.mp (mt List.mem_cons.mpr h)
    rw [List.cons_append, cutAt, if_neg (Ne.symm hc), ih hfront]
    cases cutAt sep rest <;> rfl

private theorem cutAt_append {sep : Char} {front : List Char} (h : sep ∉ front) (rest : List Char) :
    cutAt sep (front ++ sep :: rest) = some (front, rest) := by
  rw [cutAt_append_of_not_mem h, cutAt, if_pos rfl, Option.map_some, List.append_nil]

theorem eq_of_cutAt {sep : Char} {cs before after : List Char} (h : cutAt sep cs = some (before, after)) :
    cs = before ++ sep :: after := by
  fun_induction cutAt sep cs generalizing before after with
  | case1 => cases h
  | case2 rest =>
    cases h
    rfl
  | case3 c rest hc front back hcut ih =>
    cases h
    rw [List.cons_append, ← ih hcut]
  | case4 => cases h

/-- A text is cut in front of the first sign of equality. -/
theorem assignment?_append {front : List Char} (h : '=' ∉ front) (rest : List Char) :
    assignment? (trimChars (front ++ '=' :: rest)) = some (trimChars front, trimChars rest) := by
  have hdrop : '=' ∉ Text.dropBlanks front := fun hmem => h ((List.dropWhile_sublist _).mem hmem)
  rw [Text.trimChars_append_cons (by decide), assignment?, cutAt_append hdrop]
  simp only [Text.trimChars_dropBlanks, Text.trimChars_rdropWhile]

/-- A bare key may have white space around it. -/
theorem assignment?_key (key : BareKey) {front back : List Char} (hfront : ∀ c ∈ front, isBlank c = true)
    (hback : ∀ c ∈ back, isBlank c = true) (rest : List Char) :
    assignment? (trimChars (front ++ key.chars ++ back ++ '=' :: rest)) = some (key.chars, trimChars rest) := by
  have hblank : isBlank '=' = false := by decide
  have hequal : '=' ∉ front ++ key.chars ++ back := by
    simp [not_mem_of_blanks hfront hblank, key.not_mem, not_mem_of_blanks hback hblank, isKeyChar]
  rw [assignment?_append hequal, Text.trimChars_back hback, Text.trimChars_front hfront, key.trimChars]

/-- A line that ends is read without its end, and a carriage return may be lost with it. -/
theorem linesOf_lineEnd {line : List Char} (h : '\n' ∉ line) (e : LineEnd) (rest : List Char) :
    ∃ l, (l = line ∨ l = dropReturn line) ∧ linesOf (line ++ (e.chars ++ rest)) = l :: linesOf rest := by
  cases e with
  | feed => exact ⟨dropReturn line, .inr rfl, Text.linesOf_line h rest⟩
  | returnAndFeed =>
    have hreturn : '\n' ∉ line ++ ['\r'] := by simp [h]
    have hdrop : dropReturn (line ++ ['\r']) = line := by simp [dropReturn]
    refine ⟨line, .inl rfl, ?_⟩
    rw [← hdrop, ← Text.linesOf_line hreturn, hdrop, List.append_assoc]
    rfl

end TraitMock.Manifest
