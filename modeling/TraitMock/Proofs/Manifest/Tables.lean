import TraitMock.Manifest.Target
import TraitMock.Proofs.Manifest.Writing

namespace TraitMock.Manifest

open Text (isBlank trimChars dropBlanks linesOf dropReturn)

section Documents

/-- A string on one line, without escapes. -/
structure PlainString where
  quote : Quote
  chars : List Char
  closed : quote.mark ∉ chars
  plain : quote = .basic → '\\' ∉ chars
  oneLine : '\n' ∉ chars

/-- A part of a key, with or without quotation marks. -/
inductive KeyPart where
  | bare (key : BareKey)
  | quoted (s : PlainString)

structure SpacedPart where
  before : Gap
  part : KeyPart
  behind : Gap

/-- A key: one part or several. -/
structure Key where
  first : SpacedPart
  more : List SpacedPart

/-- A line that opens a table, or one of an array of tables. -/
structure Header where
  isArray : Bool
  key : Key

structure Assignment where
  key : Key
  gap : Gap
  value : PlainString

inductive Statement where
  | header (h : Header)
  | assignment (a : Assignment)

structure Line where
  indent : Gap
  statement : Option Statement
  trail : Gap
  comment : Option Comment

/-- A manifest: lines that end, and a last one that does not. -/
structure Document where
  lines : List (Line × LineEnd)
  last : Line

/-- The name of a table, as a header without gaps and quotation marks gives it. -/
structure TableName where
  first : BareKey
  more : List BareKey

/-- A header together with the comment behind it. -/
structure Opening where
  header : Header
  comment : Option Comment

/-- An assignment together with the header of the table that it stands in. -/
structure Setting where
  table : Option Opening
  assignment : Assignment

end Documents

section Characters

/-- Parts with dots between them. -/
def dotted (parts : List (List Char)) : List Char := ['.'].intercalate parts

def PlainString.written (s : PlainString) : List Char := quoted s.quote s.chars

def KeyPart.name : KeyPart → List Char
  | .bare key => key.chars
  | .quoted s => s.chars

def KeyPart.written : KeyPart → List Char
  | .bare key => key.chars
  | .quoted s => s.written

def SpacedPart.written (p : SpacedPart) : List Char := p.before.chars ++ (p.part.written ++ p.behind.chars)

def Key.parts (key : Key) : List SpacedPart := key.first :: key.more

def Key.names (key : Key) : List (List Char) := key.parts.map (·.part.name)

def Key.written (key : Key) : List Char := dotted (key.parts.map SpacedPart.written)

/-- What stands between the outer brackets of a header. -/
def Header.inner (h : Header) : List Char := if h.isArray then '[' :: (h.key.written ++ [']']) else h.key.written

def Header.written (h : Header) : List Char := '[' :: (h.inner ++ [']'])

def Assignment.written (a : Assignment) : List Char := a.key.written ++ '=' :: (a.gap.chars ++ a.value.written)

def Statement.written : Statement → List Char
  | .header h => h.written
  | .assignment a => a.written

def Line.written (l : Line) : List Char :=
  l.indent.chars ++ ((l.statement.map Statement.written).getD [] ++ (l.trail.chars ++ commentChars l.comment))

def Document.text (d : Document) : String :=
  String.ofList (d.lines.flatMap (fun l => l.1.written ++ l.2.chars) ++ d.last.written)

def TableName.names (t : TableName) : List (List Char) := (t.first :: t.more).map BareKey.chars

/-- The header of a table as it is recognized. -/
def TableName.header (t : TableName) : List Char := '[' :: (dotted t.names ++ [']'])

def TableName.text (t : TableName) : String := String.ofList (dotted t.names)

end Characters

section Settings

/-- The assignments of some lines, each with the header in front of it; `table` is the one in front of them all. -/
def settingsFrom (table : Option Opening) : List Line → List Setting
  | [] => []
  | line :: rest =>
    match line.statement with
    | none => settingsFrom table rest
    | some (.header h) => settingsFrom (some ⟨h, line.comment⟩) rest
    | some (.assignment a) => ⟨table, a⟩ :: settingsFrom table rest

def Document.settings (d : Document) : List Setting := settingsFrom none (d.lines.map Prod.fst ++ [d.last])

/-- Whether a header opens the table of a name, however it is written. -/
def Opening.isOf (t : TableName) (o : Opening) : Bool := !o.header.isArray && o.header.key.names == t.names

/-- Whether a setting is one of a key in a table, however they are written. -/
def Setting.isOf (t : TableName) (key : BareKey) (s : Setting) : Bool :=
  s.table.any (Opening.isOf t) && s.assignment.key.names == [key.chars]

/-- The value that the first assignment to a key in a table gives. -/
def valueAmong (t : TableName) (key : BareKey) (settings : List Setting) : Option String :=
  (settings.find? (Setting.isOf t key)).map fun s => String.ofList s.assignment.value.chars

/-- The value that a manifest declares. -/
def Document.value (d : Document) (t : TableName) (key : BareKey) : Option String := valueAmong t key d.settings

/-- A key of one part, without quotation marks. -/
def Key.bare? (key : Key) : Option BareKey :=
  match key.more, key.first.part with
  | [], .bare b => some b
  | _, _ => none

/-- A part without gaps and quotation marks. -/
def SpacedPart.isPlain (p : SpacedPart) : Bool :=
  match p.part with
  | .bare _ => p.before.chars.isEmpty && p.behind.chars.isEmpty
  | .quoted _ => false

/-- A header that is written in the one way that is recognized. -/
def Opening.isPlain (o : Opening) : Bool := o.comment.isNone && o.header.key.parts.all SpacedPart.isPlain

/-- A setting that is written in the one way that is recognized. -/
def Setting.isReadable (s : Setting) : Bool :=
  s.table.all Opening.isPlain && s.assignment.key.bare?.isSome && s.assignment.value.quote == .basic

/-- Whether the first setting of a key in a table, if there is one, is readable. -/
def Document.reads (d : Document) (t : TableName) (key : BareKey) : Bool :=
  (d.settings.find? (Setting.isOf t key)).all Setting.isReadable

end Settings

section Dots

variable {c : Char} {part : List Char} {parts : List (List Char)}

private theorem mem_dotted (hpart : part ∈ parts) (hc : c ∈ part) : c ∈ dotted parts := by
  induction parts with
  | nil => cases hpart
  | cons first rest ih =>
    by_cases hrest : rest = []
    · subst hrest
      obtain rfl := List.mem_singleton.mp hpart
      simpa [dotted] using hc
    · rw [dotted, List.intercalate_cons_of_ne_nil hrest, List.append_assoc, List.mem_append, List.mem_append]
      rcases List.mem_cons.mp hpart with rfl | hpart
      · exact .inl hc
      · exact .inr (.inr (ih hpart))

theorem eq_or_exists_of_mem_dotted (h : c ∈ dotted parts) : c = '.' ∨ ∃ part ∈ parts, c ∈ part := by
  induction parts with
  | nil => simp [dotted] at h
  | cons first rest ih =>
    by_cases hrest : rest = []
    · subst hrest
      exact .inr ⟨first, List.mem_singleton_self first, by simpa [dotted] using h⟩
    · rw [dotted, List.intercalate_cons_of_ne_nil hrest, List.append_assoc, List.mem_append, List.mem_append,
        List.mem_singleton] at h
      rcases h with hfirst | hdot | hbehind
      · exact .inr ⟨first, List.mem_cons_self, hfirst⟩
      · exact .inl hdot
      · exact (ih hbehind).imp_right fun ⟨part, hpart, hmem⟩ => ⟨part, List.mem_cons_of_mem first hpart, hmem⟩

/-- Parts without dots can be told from what they are written to. -/
theorem dotted_inj {parts' : List (List Char)} (hne : parts ≠ []) (hne' : parts' ≠ []) (h : ∀ part ∈ parts, '.' ∉ part)
    (h' : ∀ part ∈ parts', '.' ∉ part) : dotted parts = dotted parts' ↔ parts = parts' := by
  refine ⟨fun heq => ?_, congrArg dotted⟩
  rw [← List.splitOn_intercalate '.' h hne, ← List.splitOn_intercalate '.' h' hne']
  exact congrArg (List.splitOn '.') heq

end Dots

section Headers

variable {t : TableName} {key : BareKey}

theorem TableName.plain (t : TableName) : ∀ part ∈ t.names, ∀ c ∈ part, isKeyChar c = true := by
  intro part hpart c hc
  obtain ⟨b, -, rfl⟩ := List.mem_map.mp hpart
  exact b.plain c hc

theorem TableName.not_mem {c : Char} (t : TableName) (hdot : c ≠ '.') (hc : isKeyChar c = false) :
    c ∉ dotted t.names := by
  intro hmem
  rcases eq_or_exists_of_mem_dotted hmem with heq | ⟨part, hpart, hpartc⟩
  · exact hdot heq
  · exact Bool.false_ne_true (hc.symm.trans (t.plain part hpart c hpartc))

theorem SpacedPart.isPlain_iff {p : SpacedPart} :
    p.isPlain = true ↔ ∃ b : BareKey, p.part = .bare b ∧ p.before.chars = [] ∧ p.behind.chars = [] := by
  rw [SpacedPart.isPlain]
  cases p.part with
  | bare b => simp
  | quoted s => simp

/-- A part without gaps and quotation marks is written as its name. -/
theorem SpacedPart.written_of_isPlain {p : SpacedPart} (h : p.isPlain = true) : p.written = p.part.name := by
  obtain ⟨b, hbare, hbefore, hbehind⟩ := SpacedPart.isPlain_iff.mp h
  rw [SpacedPart.written, hbefore, hbehind, hbare, List.nil_append, List.append_nil]
  rfl

private theorem SpacedPart.not_mem_name {p : SpacedPart} (h : p.isPlain = true) : '.' ∉ p.part.name := by
  obtain ⟨b, hbare, -⟩ := SpacedPart.isPlain_iff.mp h
  rw [hbare]
  exact b.not_mem (by decide)

/-- Gaps and quotation marks show in what is written. -/
theorem SpacedPart.isPlain_of_written {p : SpacedPart} (h : ∀ c ∈ p.written, c = '.' ∨ isKeyChar c = true) :
    p.isPlain = true := by
  have hgap : ∀ g : Gap, (∀ c ∈ g.chars, c ∈ p.written) → g.chars = [] := by
    intro g hg
    refine List.eq_nil_iff_forall_not_mem.mpr fun c hc => ?_
    have hblank := g.isBlank c hc
    rcases h c (hg c hc) with rfl | hkey
    · exact absurd hblank (by decide)
    · exact Bool.false_ne_true ((isBlank_of_isKeyChar hkey).symm.trans hblank)
  have hbefore : p.before.chars = [] := hgap _ fun c hc => List.mem_append_left _ hc
  have hbehind : p.behind.chars = [] := hgap _ fun c hc => List.mem_append_right _ (List.mem_append_right _ hc)
  cases hpart : p.part with
  | bare b => exact SpacedPart.isPlain_iff.mpr ⟨b, hpart, hbefore, hbehind⟩
  | quoted s =>
    have hmark : s.quote.mark ∈ p.written := by
      rw [SpacedPart.written, hpart]
      simp [KeyPart.written, PlainString.written, Manifest.quoted]
    exact absurd (h _ hmark) (by cases s.quote <;> decide)

private theorem Key.names_ne_nil (k : Key) : k.names ≠ [] := by simp [Key.names, Key.parts]

/-- What stands in a header is the name of a table if and only if it is written without gaps and quotation marks. -/
theorem Key.written_eq_iff (k : Key) (t : TableName) :
    k.written = dotted t.names ↔ k.names = t.names ∧ k.parts.all SpacedPart.isPlain = true := by
  rw [List.all_eq_true]
  have hnames (hplain : ∀ p ∈ k.parts, p.isPlain = true) : k.written = dotted k.names :=
    congrArg dotted (List.map_congr_left fun p hp => SpacedPart.written_of_isPlain (hplain p hp))
  constructor
  · intro heq
    have hplain : ∀ p ∈ k.parts, p.isPlain = true := by
      refine fun p hp => SpacedPart.isPlain_of_written fun c hc => ?_
      have hmem : c ∈ dotted t.names := heq ▸ mem_dotted (List.mem_map_of_mem hp) hc
      exact (eq_or_exists_of_mem_dotted hmem).imp_right fun ⟨part, hpart, hpartc⟩ => t.plain part hpart c hpartc
    have hdots : ∀ part ∈ k.names, '.' ∉ part :=
      List.forall_mem_map.mpr fun p hp => SpacedPart.not_mem_name (hplain p hp)
    have hdots' : ∀ part ∈ t.names, '.' ∉ part := List.forall_mem_map.mpr fun b _ => b.not_mem (by decide)
    rw [hnames hplain, dotted_inj k.names_ne_nil (by simp [TableName.names]) hdots hdots'] at heq
    exact ⟨heq, hplain⟩
  · rintro ⟨heq, hplain⟩
    rw [hnames hplain, heq]

private theorem Header.inner_eq_iff (h : Header) (t : TableName) :
    h.inner = dotted t.names ↔
      h.isArray = false ∧ h.key.names = t.names ∧ h.key.parts.all SpacedPart.isPlain = true := by
  rw [Header.inner]
  cases h.isArray with
  | false => simp [h.key.written_eq_iff t]
  | true =>
    have hbracket : '[' ∉ dotted t.names := t.not_mem (by decide) (by decide)
    have hne : '[' :: (h.key.written ++ [']']) ≠ dotted t.names := fun heq => hbracket (heq ▸ List.mem_cons_self)
    simpa using hne

/-- The header of a table is recognized if and only if it is written without gaps, quotation marks and a comment. -/
theorem header_eq_iff (indent trail : Gap) (h : Header) (comment : Option Comment) (t : TableName) :
    trimChars (indent.chars ++ (h.written ++ (trail.chars ++ commentChars comment))) = t.header ↔
      Opening.isOf t ⟨h, comment⟩ = true ∧ Opening.isPlain ⟨h, comment⟩ = true := by
  cases comment with
  | none =>
    have htrim : trimChars (indent.chars ++ (h.written ++ (trail.chars ++ commentChars none))) = h.written := by
      have hlast : isBlank ']' = false := by decide
      rw [show commentChars none = [] from rfl, List.append_nil, Text.trimChars_front indent.isBlank,
        Text.trimChars_back trail.isBlank, Header.written, Text.trimChars_cons (by decide),
        List.rdropWhile_concat_neg _ _ _ (by simp [hlast])]
    rw [htrim, Header.written, TableName.header, List.cons_inj_right, List.append_left_inj, h.inner_eq_iff t]
    simp [Opening.isOf, Opening.isPlain, and_assoc]
  | some c =>
    have hcomment : '#' ∈ trimChars (indent.chars ++ (h.written ++ (trail.chars ++ commentChars (some c)))) :=
      Text.mem_trimChars (by simp [commentChars, Comment.chars]) (by decide)
    have hnone : '#' ∉ t.header := by simp [TableName.header, t.not_mem (c := '#') (by decide) (by decide)]
    simp only [Opening.isPlain, Option.isNone_some, Bool.false_and, Bool.false_eq_true, and_false, iff_false]
    exact fun heq => hnone (heq ▸ hcomment)

end Headers

section Lines

variable {c : Char} {front line key header : List Char} {inside : Bool}

theorem head?_trimChars (hfront : ∀ b ∈ front, isBlank b = true) (hc : isBlank c = false) (rest : List Char) :
    (trimChars (front ++ c :: rest)).head? = some c := by
  rw [Text.trimChars_front hfront, Text.trimChars_cons hc, List.head?_cons]

/-- What stands in front of the first sign of equality belongs to the key. -/
theorem mem_of_assignment? (hfront : '=' ∉ front) (hequal : c ≠ '=') (hc : isBlank c = false) {rest k v : List Char}
    (h : assignment? (trimChars (front ++ c :: rest)) = some (k, v)) : c ∈ k := by
  have hdrop : '=' ∉ dropBlanks front := fun hmem => hfront ((List.dropWhile_sublist _).mem hmem)
  have hstranger : '=' ∉ dropBlanks front ++ [c] := by simp [hdrop, hequal.symm]
  rw [Text.trimChars_append_cons hc, List.append_cons, assignment?, cutAt_append_of_not_mem hstranger] at h
  cases hcut : cutAt '=' (rest.rdropWhile isBlank) with
  | none => simp [hcut] at h
  | some parts =>
    simp only [hcut, Option.map_some, Option.some.injEq, Prod.mk.injEq] at h
    rw [← h.1]
    exact Text.mem_trimChars (by simp) hc

private theorem valueIn_header (h : (trimChars line).head? = some '[') (rest : List (List Char)) :
    valueIn header key inside (line :: rest) = valueIn header key (decide (trimChars line = header)) rest := by
  simp only [valueIn, if_pos h]

/-- A line that is neither a header nor an assignment to the key is skipped. -/
theorem valueIn_skip (hhead : (trimChars line).head? ≠ some '[')
    (hother : ∀ k v, assignment? (trimChars line) = some (k, v) → k ≠ key) (rest : List (List Char)) :
    valueIn header key inside (line :: rest) = valueIn header key inside rest := by
  simp only [valueIn, if_neg hhead]
  split
  · split
    · rename_i k v hassignment
      rw [if_neg (hother k v hassignment)]
    · rfl
  · rfl

private theorem valueIn_assignment {value : List Char} (hhead : (trimChars line).head? ≠ some '[')
    (hassignment : assignment? (trimChars line) = some (key, value)) (rest : List (List Char)) :
    valueIn header key inside (line :: rest) =
      if inside then (quotedText? value).or (valueIn header key inside rest)
      else valueIn header key inside rest := by
  simp only [valueIn, if_neg hhead, hassignment, if_true]
  cases quotedText? value <;> rfl

private theorem valueIn_congr {line' : List Char} (h : trimChars line = trimChars line') (rest : List (List Char)) :
    valueIn header key inside (line :: rest) = valueIn header key inside (line' :: rest) := by
  simp only [valueIn, h]

end Lines

section Statements

variable {header : List Char} {inside : Bool} {key : BareKey} {l : Line}

/-- A string in single quotes is no value. -/
theorem quotedText?_written (g : Gap) (s : PlainString) (rest : List Char) :
    quotedText? (trimChars (g.chars ++ (s.written ++ rest))) = if s.quote = .basic then some s.chars else none := by
  have hsplit : g.chars ++ (s.written ++ rest) = (g.chars ++ s.quote.mark :: s.chars) ++ s.quote.mark :: rest := by
    simp [PlainString.written, quoted]
  have hdrop : dropBlanks (g.chars ++ s.quote.mark :: s.chars) = s.quote.mark :: s.chars := by
    rw [Text.dropBlanks_append g.isBlank, Text.dropBlanks_cons s.quote.isBlank_mark]
  rw [hsplit, Text.trimChars_append_cons s.quote.isBlank_mark, hdrop, List.cons_append]
  cases hquote : s.quote with
  | literal => rfl
  | basic =>
    have hclosed : '"' ∉ s.chars := by simpa [hquote, Quote.mark] using s.closed
    have hchars : ∀ c ∈ s.chars, decide (c ≠ '"') = true := fun c hc => by
      simpa using fun heq : c = '"' => hclosed (heq ▸ hc)
    simp only [Quote.mark, quotedText?, if_true, Option.some.injEq]
    rw [List.takeWhile_append_of_pos hchars, List.takeWhile_cons_of_neg (by simp), List.append_nil]

private theorem valueIn_empty (h : l.statement = none) (rest : List (List Char)) :
    valueIn header key.chars inside (l.written :: rest) = valueIn header key.chars inside rest := by
  have hblank : ∀ c ∈ l.indent.chars ++ l.trail.chars, isBlank c = true :=
    List.forall_mem_append.mpr ⟨l.indent.isBlank, l.trail.isBlank⟩
  have hwritten : l.written = l.indent.chars ++ l.trail.chars ++ commentChars l.comment := by
    simp [Line.written, h]
  cases hcomment : l.comment with
  | none =>
    have htrim : trimChars l.written = [] := by
      rw [hwritten, hcomment, show commentChars none = [] from rfl, List.append_nil, Text.trimChars_of_blanks hblank]
    exact valueIn_skip (by simp [htrim]) (by simp [htrim, assignment?, cutAt]) rest
  | some c =>
    have hequal : '=' ∉ l.indent.chars ++ l.trail.chars := fun hmem => absurd (hblank _ hmem) (by decide)
    rw [hwritten, hcomment, commentChars, Option.map_some, Option.getD_some, Comment.chars]
    refine valueIn_skip (by rw [head?_trimChars hblank (by decide)]; decide) ?_ rest
    rintro k v hassignment rfl
    exact key.not_mem (by decide) (mem_of_assignment? hequal (by decide) (by decide) hassignment)

theorem KeyPart.exists_written (p : KeyPart) : ∃ c w, p.written = c :: w ∧ isBlank c = false ∧ c ≠ '[' := by
  cases p with
  | bare b =>
    obtain ⟨c, w, hchars⟩ := List.exists_cons_of_ne_nil b.nonempty
    have hc : c ∈ b.chars := hchars ▸ List.mem_cons_self
    exact ⟨c, w, hchars, b.isBlank c hc, fun heq => b.not_mem (by decide) (heq ▸ hc)⟩
  | quoted s => exact ⟨s.quote.mark, s.chars ++ [s.quote.mark], rfl, s.quote.isBlank_mark, by cases s.quote <;> decide⟩

/-- An assignment begins with the first part of its key, and a dot follows if there are more. -/
theorem Assignment.exists_written (a : Assignment) (indent : Gap) (rest : List Char) :
    ∃ more, (a.key.more = [] → more = []) ∧ (a.key.more ≠ [] → ∃ w, more = '.' :: w) ∧
      indent.chars ++ (a.written ++ rest) =
        (indent.chars ++ a.key.first.before.chars) ++ (a.key.first.part.written ++ (a.key.first.behind.chars ++
          (more ++ '=' :: (a.gap.chars ++ (a.value.written ++ rest))))) := by
  rw [Assignment.written, Key.written, Key.parts, List.map_cons, SpacedPart.written, dotted]
  cases a.key.more with
  | nil => exact ⟨[], by simp, by simp, by simp⟩
  | cons p more =>
    rw [List.intercalate_cons_of_ne_nil (by simp), List.append_assoc]
    exact ⟨'.' :: ['.'].intercalate ((p :: more).map SpacedPart.written), by simp, by simp, by simp⟩

theorem Key.bare?_eq_some {k : Key} {b : BareKey} : k.bare? = some b ↔ k.more = [] ∧ k.first.part = .bare b := by
  rw [Key.bare?]
  split <;> simp_all

theorem blank_indent (indent before : Gap) : ∀ c ∈ indent.chars ++ before.chars, isBlank c = true :=
  List.forall_mem_append.mpr ⟨indent.isBlank, before.isBlank⟩

/-- An assignment to a key of one part without quotation marks. -/
theorem assignment?_bare {a : Assignment} {b : BareKey} (h : a.key.bare? = some b) (indent : Gap) (rest : List Char) :
    assignment? (trimChars (indent.chars ++ (a.written ++ rest))) =
      some (b.chars, trimChars (a.gap.chars ++ (a.value.written ++ rest))) := by
  obtain ⟨hmore, hpart⟩ := Key.bare?_eq_some.mp h
  obtain ⟨more, hnil, -, hwritten⟩ := a.exists_written indent rest
  rw [hwritten, hnil hmore, hpart, KeyPart.written, List.nil_append, ← List.append_assoc, ← List.append_assoc,
    assignment?_key b (blank_indent _ _) a.key.first.behind.isBlank]

/-- Any other key has a dot or a quotation mark in front of the first sign of equality. -/
theorem exists_of_bare?_eq_none {a : Assignment} (h : a.key.bare? = none) (indent : Gap) (rest : List Char)
    {k v : List Char} (hassignment : assignment? (trimChars (indent.chars ++ (a.written ++ rest))) = some (k, v)) :
    ∃ c ∈ k, isKeyChar c = false := by
  have hindent : '=' ∉ indent.chars ++ a.key.first.before.chars := not_mem_of_blanks (blank_indent _ _) (by decide)
  obtain ⟨more, -, hdot, hwritten⟩ := a.exists_written indent rest
  rw [hwritten] at hassignment
  cases hpart : a.key.first.part with
  | quoted s =>
    rw [hpart, KeyPart.written, PlainString.written, quoted, List.cons_append] at hassignment
    have hmark : s.quote.mark ≠ '=' ∧ isKeyChar s.quote.mark = false := by cases s.quote <;> decide
    exact ⟨_, mem_of_assignment? hindent hmark.1 s.quote.isBlank_mark hassignment, hmark.2⟩
  | bare b =>
    have hmore : a.key.more ≠ [] := fun hnil => by
      rw [Key.bare?_eq_some.mpr ⟨hnil, hpart⟩] at h
      cases h
    obtain ⟨w, rfl⟩ := hdot hmore
    have hequal : '=' ∉ indent.chars ++ a.key.first.before.chars ++ (b.chars ++ a.key.first.behind.chars) := by
      simp only [List.mem_append, not_or] at hindent ⊢
      exact ⟨hindent, b.not_mem (by decide), a.key.first.behind.not_mem (by decide) (by decide)⟩
    rw [hpart, KeyPart.written, ← List.append_assoc b.chars, ← List.append_assoc (_ ++ _)] at hassignment
    exact ⟨'.', mem_of_assignment? hequal (by decide) (by decide) hassignment, by decide⟩

private theorem head?_assignment (a : Assignment) (indent : Gap) (rest : List Char) :
    (trimChars (indent.chars ++ (a.written ++ rest))).head? ≠ some '[' := by
  obtain ⟨more, -, -, hwritten⟩ := a.exists_written indent rest
  obtain ⟨c, w, hpart, hblank, hbracket⟩ := a.key.first.part.exists_written
  rw [hwritten, hpart, List.cons_append, head?_trimChars (blank_indent _ _) hblank]
  simpa using hbracket

private theorem Key.names_of_bare? {k : Key} {b : BareKey} (h : k.bare? = some b) : k.names = [b.chars] := by
  obtain ⟨hmore, hpart⟩ := Key.bare?_eq_some.mp h
  simp [Key.names, Key.parts, hmore, hpart, KeyPart.name]

/-- An assignment to the key gives a value if it is readable. -/
theorem valueIn_assignmentLine {a : Assignment} (h : l.statement = some (.assignment a)) (rest : List (List Char)) :
    valueIn header key.chars inside (l.written :: rest) =
      if inside = true ∧ a.key.names = [key.chars] ∧ a.key.bare?.isSome = true ∧ a.value.quote = .basic then
        some a.value.chars
      else valueIn header key.chars inside rest := by
  have hwritten : l.written = l.indent.chars ++ (a.written ++ (l.trail.chars ++ commentChars l.comment)) := by
    rw [Line.written, h]
    rfl
  have hhead := head?_assignment a l.indent (l.trail.chars ++ commentChars l.comment)
  rw [hwritten]
  cases hbare : a.key.bare? with
  | none =>
    rw [valueIn_skip hhead, if_neg (by simp)]
    rintro k v hassignment rfl
    obtain ⟨c, hc, hplain⟩ := exists_of_bare?_eq_none hbare l.indent _ hassignment
    exact key.not_mem hplain hc
  | some b =>
    have hassignment := assignment?_bare hbare l.indent (l.trail.chars ++ commentChars l.comment)
    rw [Key.names_of_bare? hbare]
    by_cases hkey : b.chars = key.chars
    · rw [hkey] at hassignment ⊢
      rw [valueIn_assignment hhead hassignment, quotedText?_written]
      by_cases hquote : a.value.quote = .basic <;> cases inside <;> simp [hquote]
    · rw [valueIn_skip hhead, if_neg (by simp [hkey])]
      rintro k v hother rfl
      rw [hassignment] at hother
      exact hkey (Prod.ext_iff.mp (Option.some.inj hother)).1

private theorem valueIn_headerLine {h : Header} (hl : l.statement = some (.header h)) (t : TableName)
    (rest : List (List Char)) :
    valueIn t.header key.chars inside (l.written :: rest) =
      valueIn t.header key.chars (Opening.isOf t ⟨h, l.comment⟩ && Opening.isPlain ⟨h, l.comment⟩) rest := by
  have hwritten : l.written = l.indent.chars ++ (h.written ++ (l.trail.chars ++ commentChars l.comment)) := by
    rw [Line.written, hl]
    rfl
  have hhead : (trimChars l.written).head? = some '[' := by
    rw [hwritten, Header.written, List.cons_append, head?_trimChars l.indent.isBlank (by decide)]
  have hseen : decide (trimChars l.written = t.header) =
      (Opening.isOf t ⟨h, l.comment⟩ && Opening.isPlain ⟨h, l.comment⟩) := by
    rw [Bool.eq_iff_iff, decide_eq_true_iff, hwritten, header_eq_iff, Bool.and_eq_true]
  rw [valueIn_header hhead, hseen]

end Statements

section Ends

theorem Gap.oneLine (g : Gap) : '\n' ∉ g.chars := g.not_mem (by decide) (by decide)

theorem PlainString.not_mem_written (s : PlainString) : '\n' ∉ s.written := by
  have hmark : '\n' ≠ s.quote.mark := by cases s.quote <;> decide
  simp [PlainString.written, quoted, s.oneLine, hmark]

theorem Key.not_mem_written (k : Key) : '\n' ∉ k.written := by
  intro hmem
  rcases eq_or_exists_of_mem_dotted hmem with heq | ⟨part, hpart, hmem⟩
  · exact absurd heq (by decide)
  · obtain ⟨p, -, rfl⟩ := List.mem_map.mp hpart
    have hname : '\n' ∉ p.part.written := by
      cases p.part with
      | bare b => exact b.not_mem (by decide)
      | quoted s => exact s.not_mem_written
    simp [SpacedPart.written, p.before.oneLine, hname, p.behind.oneLine] at hmem

theorem Line.not_mem_written (l : Line) : '\n' ∉ l.written := by
  have hstatement : '\n' ∉ (l.statement.map Statement.written).getD [] := by
    cases l.statement with
    | none => exact List.not_mem_nil
    | some statement =>
      cases statement with
      | header h =>
        simp only [Option.map_some, Option.getD_some, Statement.written, Header.written, Header.inner]
        split <;> simp [h.key.not_mem_written]
      | assignment a =>
        simp [Statement.written, Assignment.written, a.key.not_mem_written, a.gap.oneLine, a.value.not_mem_written]
  simp [Line.written, l.indent.oneLine, hstatement, l.trail.oneLine, not_mem_commentChars]

end Ends

section Run

variable (t : TableName) (key : BareKey)

/-- Whether the lines behind a header are read as lines of a table. -/
def isSeen (table : Option Opening) : Bool := table.any fun o => o.isOf t && o.isPlain

/-- The first readable value among some settings. -/
def readableAmong (settings : List Setting) : Option (List Char) :=
  ((settings.filter Setting.isReadable).find? (Setting.isOf t key)).map fun s => s.assignment.value.chars

private theorem isSeen_iff (table : Option Opening) :
    isSeen t table = true ↔ table.any (Opening.isOf t) = true ∧ table.all Opening.isPlain = true := by
  cases table <;> simp [isSeen]

private theorem readableAmong_cons (s : Setting) (settings : List Setting) :
    readableAmong t key (s :: settings) =
      if s.isReadable = true ∧ s.isOf t key = true then some s.assignment.value.chars
      else readableAmong t key settings := by
  rw [readableAmong, List.filter_cons]
  by_cases hreadable : s.isReadable = true
  · rw [if_pos hreadable, List.find?_cons]
    cases hof : s.isOf t key <;> simp [hreadable, readableAmong]
  · rw [if_neg hreadable, if_neg fun h => hreadable h.1, readableAmong]

/-- If the lines behind a line give their first readable value, from whatever table on, so do they together with it. -/
theorem valueIn_line (l : Line) {ls : List Line} {rest : List (List Char)}
    (ih : ∀ table, valueIn t.header key.chars (isSeen t table) rest = readableAmong t key (settingsFrom table ls))
    (table : Option Opening) :
    valueIn t.header key.chars (isSeen t table) (l.written :: rest) =
      readableAmong t key (settingsFrom table (l :: ls)) := by
  rw [settingsFrom]
  cases hstatement : l.statement with
  | none => rw [valueIn_empty hstatement, ih]
  | some statement =>
    cases statement with
    | header h => exact (valueIn_headerLine hstatement t rest).trans (ih (some ⟨h, l.comment⟩))
    | assignment a =>
      rw [valueIn_assignmentLine hstatement, ih, readableAmong_cons]
      refine if_congr ?_ rfl rfl
      simp only [isSeen_iff, Setting.isReadable, Setting.isOf, Bool.and_eq_true, beq_iff_eq]
      tauto

/-- Lines give their first readable value, whatever table they begin in. -/
theorem valueIn_lines (ls : List (Line × LineEnd)) (last : Line) (table : Option Opening) :
    valueIn t.header key.chars (isSeen t table)
        (linesOf (ls.flatMap (fun l => l.1.written ++ l.2.chars) ++ last.written)) =
      readableAmong t key (settingsFrom table (ls.map Prod.fst ++ [last])) := by
  -- a header among the lines changes the table for those behind it
  induction ls generalizing table with
  | nil =>
    have hend (table : Option Opening) : valueIn t.header key.chars (isSeen t table) [] =
        readableAmong t key (settingsFrom table []) := rfl
    have hline := valueIn_line t key last hend table
    rw [List.flatMap_nil, List.nil_append, Text.linesOf_last last.not_mem_written]
    split
    · rename_i hnil
      rw [hnil, valueIn_skip (by decide) (by simp [show trimChars [] = [] from rfl, assignment?, cutAt])] at hline
      exact hline
    · exact hline
  | cons l ls ih =>
    obtain ⟨line, hline, hlines⟩ := linesOf_lineEnd l.1.not_mem_written l.2
      (ls.flatMap (fun l => l.1.written ++ l.2.chars) ++ last.written)
    have htrim : trimChars line = trimChars l.1.written := by
      rcases hline with rfl | rfl
      · rfl
      · exact Text.trimChars_dropReturn l.1.written
    rw [List.flatMap_cons, List.append_assoc, List.append_assoc, hlines, valueIn_congr htrim]
    exact valueIn_line t key l.1 (fun table => ih table) table

/-- The value of a key in a table is the first one that a readable setting gives. -/
theorem sectionValue_text (d : Document) :
    sectionValue d.text t.text key.text = valueAmong t key (d.settings.filter Setting.isReadable) := by
  have hheader : ("[" ++ t.text ++ "]").toList = t.header := by simp [TableName.text, TableName.header]
  have hvalue := valueIn_lines t key d.lines d.last none
  rw [sectionValue, hheader, BareKey.toList_text, Document.text, String.toList_ofList]
  exact congrArg (Option.map String.ofList) hvalue |>.trans (Option.map_map _ _ _)

/-- It is the declared one if the first setting of the key is readable. -/
theorem valueAmong_filter {d : Document} (h : d.reads t key = true) :
    valueAmong t key (d.settings.filter Setting.isReadable) = d.value t key := by
  have hfirst (settings : List Setting) (h : (settings.find? (Setting.isOf t key)).all Setting.isReadable = true) :
      (settings.filter Setting.isReadable).find? (Setting.isOf t key) = settings.find? (Setting.isOf t key) := by
    induction settings with
    | nil => rfl
    | cons s settings ih =>
      rw [List.find?_cons] at h ⊢
      cases hof : s.isOf t key with
      | true =>
        rw [hof] at h
        rw [List.filter_cons_of_pos (by simpa using h), List.find?_cons_of_pos hof]
      | false =>
        rw [hof] at h
        rw [← ih h, List.filter_cons]
        split
        · rw [List.find?_cons_of_neg (by simp [hof])]
        · rfl
  rw [Document.value, valueAmong, valueAmong, hfirst _ h]

end Run

section Targets

def nameKey : BareKey := ⟨['n', 'a', 'm', 'e'], by decide, List.all_eq_true.mp (by decide)⟩

def pathKey : BareKey := ⟨['p', 'a', 't', 'h'], by decide, List.all_eq_true.mp (by decide)⟩

def packageTable : TableName := ⟨⟨['p', 'a', 'c', 'k', 'a', 'g', 'e'], by decide, List.all_eq_true.mp (by decide)⟩, []⟩

def libTable : TableName := ⟨⟨['l', 'i', 'b'], by decide, List.all_eq_true.mp (by decide)⟩, []⟩

/-- The file of the library that a manifest declares. -/
def Document.libraryFile (d : Document) (dir : Path) : Path :=
  ((d.value libTable pathKey).map dir.join).getD ((dir.join "src").join "lib.rs")

/-- Whether the settings that the targets of a package depend on are readable. -/
def Document.readsTargets (d : Document) : Bool :=
  d.reads packageTable nameKey && d.reads libTable nameKey && d.reads libTable pathKey

/-- The targets of a package with the names and the path that its manifest declares. -/
def Document.targets (d : Document) (files : Files.Tree) (dir : Path) : List Target :=
  match d.value packageTable nameKey with
  | none => []
  | some package =>
    let libName := (d.value libTable nameKey).getD package
    let mainFile := (dir.join "src").join "main.rs"
    (if files.isFile (d.libraryFile dir) then [⟨package, pathName libName, .lib, dir, d.libraryFile dir⟩] else []) ++
      if files.isFile mainFile then [⟨package, pathName package, .bin, dir, mainFile⟩] else []

private theorem targetsIn_eq {d : Document} {files : Files.Tree} {dir : Path}
    (htext : files.readText (dir.join fileName) = .ok d.text) (h : d.readsTargets = true) :
    targetsIn files dir = d.targets files dir := by
  simp only [Document.readsTargets, Bool.and_eq_true] at h
  obtain ⟨⟨hfirst, hlibName⟩, hlibPath⟩ := h
  have hpackage : sectionValue d.text "package" "name" = d.value packageTable nameKey :=
    (sectionValue_text packageTable nameKey d).trans (valueAmong_filter _ _ hfirst)
  have hlibrary : sectionValue d.text "lib" "name" = d.value libTable nameKey :=
    (sectionValue_text libTable nameKey d).trans (valueAmong_filter _ _ hlibName)
  have hpath : sectionValue d.text "lib" "path" = d.value libTable pathKey :=
    (sectionValue_text libTable pathKey d).trans (valueAmong_filter _ _ hlibPath)
  cases hname : d.value packageTable nameKey with
  | none => simp only [targetsIn, htext, hpackage, Document.targets, hname]
  | some package =>
    cases hfile : d.value libTable pathKey with
    | none =>
      simp only [targetsIn, htext, hpackage, hlibrary, hpath, Document.targets, Document.libraryFile, hname, hfile,
        Option.map_none, Option.getD_none]
    | some p =>
      simp only [targetsIn, htext, hpackage, hlibrary, hpath, Document.targets, Document.libraryFile, hname, hfile,
        Option.map_some, Option.getD_some]

end Targets

/-- What is read of a manifest. The value of a key in a table is the one that the first readable assignment to it
    inside that table gives, and none from any other table. It is the declared one whenever the first assignment is
    readable: behind a header without gaps, quotation marks and a comment, to a bare key, of a string in double quotes.
    If the names and the path of a package are written like that, its targets are those that the manifest declares. -/
theorem values_of_manifest (d : Document) :
    (∀ t key, sectionValue d.text t.text key.text = valueAmong t key (d.settings.filter Setting.isReadable)) ∧
    (∀ t key, d.reads t key = true → sectionValue d.text t.text key.text = d.value t key) ∧
    ∀ (files : Files.Tree) (dir : Path), files.readText (dir.join fileName) = .ok d.text → d.readsTargets = true →
      targetsIn files dir = d.targets files dir :=
  ⟨fun t key => sectionValue_text t key d,
    fun t key h => (sectionValue_text t key d).trans (valueAmong_filter t key h),
    fun _ _ => targetsIn_eq⟩

section Fixtures

def headerOf (t : TableName) (comment : Option Comment) : Line :=
  ⟨noGap, some (.header ⟨false, ⟨noGap, .bare t.first, noGap⟩, []⟩), oneBlank, comment⟩

def assignmentOf (key : BareKey) (value : PlainString) (comment : Option Comment) : Line :=
  ⟨oneBlank, some (.assignment ⟨⟨⟨noGap, .bare key, oneBlank⟩, []⟩, oneBlank, value⟩), noGap, comment⟩

def emptyLine : Line := ⟨noGap, none, noGap, none⟩

def shop (q : Quote) : PlainString :=
  ⟨q, ['s', 'h', 'o', 'p'], by cases q <;> decide, fun _ => by decide, by decide⟩

def rootFile : PlainString := ⟨.basic, ['r', '.', 'r', 's'], by decide, fun _ => by decide, by decide⟩

def equalSign : Comment := ⟨['='], by decide⟩

/-- A manifest that gives a name in another table first, and the path of its library. -/
def libraryManifest : Document :=
  ⟨[(headerOf libTable none, .feed), (assignmentOf nameKey (shop .basic) (some equalSign), .returnAndFeed),
    (assignmentOf pathKey rootFile none, .feed), (headerOf packageTable none, .feed)],
    assignmentOf nameKey (shop .basic) none⟩

def shopFiles : Files.Tree :=
  (Files.Tree.empty.put ["w", "Cargo.toml"] (.file (Text.encodeUtf8 libraryManifest.text))).put ["w", "r.rs"] (.file [])

theorem values_of_libraryManifest :
    libraryManifest.text = "[lib] \n name = \"shop\"#=\r\n path = \"r.rs\"\n[package] \n name = \"shop\"" ∧
    libraryManifest.reads packageTable nameKey = true ∧
    sectionValue libraryManifest.text "package" "name" = some "shop" ∧
    shopFiles.readText (Path.join ⟨"/w"⟩ fileName) = .ok libraryManifest.text ∧ libraryManifest.readsTargets = true ∧
    targetsIn shopFiles ⟨"/w"⟩ = [⟨"shop", "shop", .lib, ⟨"/w"⟩, ⟨"/w/r.rs"⟩⟩] := by
  have hreads : libraryManifest.reads packageTable nameKey = true := by decide
  have htargets : libraryManifest.readsTargets = true := by decide
  have htext : shopFiles.readText (Path.join ⟨"/w"⟩ fileName) = .ok libraryManifest.text := by decide +kernel
  have hdeclared : libraryManifest.targets shopFiles ⟨"/w"⟩ = [⟨"shop", "shop", .lib, ⟨"/w"⟩, ⟨"/w/r.rs"⟩⟩] := by
    decide +kernel
  obtain ⟨-, hvalues, hfiles⟩ := values_of_manifest libraryManifest
  exact ⟨by decide +kernel, hreads, hvalues packageTable nameKey hreads, htext, htargets,
    (hfiles shopFiles ⟨"/w"⟩ htext htargets).trans hdeclared⟩

/-- The name of a package, in quotes of either kind, behind a header that may have a comment. -/
def shopManifest (q : Quote) (comment : Option Comment) : Document :=
  ⟨[(headerOf packageTable comment, .feed), (assignmentOf nameKey (shop q) none, .feed)], emptyLine⟩

/-- A name is missed if it is written in single quotes, and if the header in front of it has a comment. -/
theorem declared_name_is_missed :
    (shopManifest .literal none).text = "[package] \n name = 'shop'\n" ∧
    (shopManifest .literal none).value packageTable nameKey = some "shop" ∧
    sectionValue (shopManifest .literal none).text "package" "name" = none ∧
    (shopManifest .basic (some equalSign)).text = "[package] #=\n name = \"shop\"\n" ∧
    (shopManifest .basic (some equalSign)).value packageTable nameKey = some "shop" ∧
    sectionValue (shopManifest .basic (some equalSign)).text "package" "name" = none := by
  refine ⟨?_, ?_, ?_, ?_, ?_, ?_⟩ <;> decide +kernel

end Fixtures

end TraitMock.Manifest
