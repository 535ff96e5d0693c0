import TraitMock.Proofs.Manifest.Writing

namespace TraitMock.Manifest

open Text (isBlank trimChars dropBlanks linesOf dropReturn splitAtChar)

section Layouts

/-- The characters that end a string, an item, an array or a line, or introduce an escape or a comment. -/
def isReserved (c : Char) : Bool := ['"', '\'', '\\', ',', '[', ']', '#', '\n', '\r'].contains c

/-- A string of an array. -/
structure Member where
  chars : List Char
  nonempty : chars ≠ []
  plain : ∀ c ∈ chars, isReserved c = false

/-- What may stand anywhere between the parts of an array. -/
inductive Filler where
  | gap (g : Gap)
  | lineEnd (comment : Option Comment) (e : LineEnd)

structure Item where
  before : List Filler
  quote : Quote
  member : Member
  behind : List Filler

/-- The items of an array; the last one may have a comma behind it. -/
inductive Elements where
  | none (filler : List Filler)
  | last (item : Item)
  | more (item : Item) (rest : Elements)

/-- What follows an array: the rest of its line, and the lines behind that, which may have anything in them. -/
structure Following where
  trail : Gap
  comment : Option Comment
  lines : Option (LineEnd × List Char)

/-- A line that assigns nothing to a key. -/
structure OtherLine (key : BareKey) where
  chars : List Char
  oneLine : '\n' ∉ chars
  other : ∀ front back rest, (∀ c ∈ front ++ back, isBlank c = true) →
    chars ≠ front ++ key.chars ++ back ++ '=' :: rest
  lineEnd : LineEnd

/-- A manifest in which the first assignment to a key gives an array. -/
structure ArrayManifest (key : BareKey) where
  preceding : List (OtherLine key)
  indent : Gap
  behindKey : Gap
  beforeArray : Gap
  elements : Elements
  following : Following

def Filler.chars : Filler → List Char
  | .gap g => g.chars
  | .lineEnd comment e => commentChars comment ++ e.chars

def Item.chars (i : Item) : List Char :=
  i.before.flatMap Filler.chars ++ (quoted i.quote i.member.chars ++ i.behind.flatMap Filler.chars)

def Elements.chars : Elements → List Char
  | .none filler => filler.flatMap Filler.chars
  | .last item => item.chars
  | .more item rest => item.chars ++ ',' :: rest.chars

/-- The strings of an array, in their order. -/
def Elements.members : Elements → List Member
  | .none _ => []
  | .last item => [item.member]
  | .more item rest => item.member :: rest.members

def Following.linesChars (f : Following) : List Char :=
  match f.lines with
  | none => []
  | some (e, rest) => e.chars ++ rest

def Following.chars (f : Following) : List Char := f.trail.chars ++ (commentChars f.comment ++ f.linesChars)

def OtherLine.text {key : BareKey} (l : OtherLine key) : List Char := l.chars ++ l.lineEnd.chars

/-- The array with its brackets. -/
def ArrayManifest.array {key : BareKey} (m : ArrayManifest key) : List Char :=
  '[' :: (m.elements.chars ++ ']' :: m.following.chars)

def ArrayManifest.text {key : BareKey} (m : ArrayManifest key) : String :=
  String.ofList (m.preceding.flatMap OtherLine.text ++
    (m.indent.chars ++ key.chars ++ m.behindKey.chars ++ '=' :: (m.beforeArray.chars ++ m.array)))

def Member.text (m : Member) : String := String.ofList m.chars

theorem Member.not_mem {c : Char} (m : Member) (h : isReserved c = true) : c ∉ m.chars := fun hc =>
  Bool.false_ne_true ((m.plain c hc).symm.trans h)

end Layouts

section Items

/-- The items between the commas of a text. -/
def partItems (cs : List Char) : List (List Char) := ((splitAtChar ',' cs).map itemText).filter (· ≠ [])

theorem itemsOn_eq (line : List Char) :
    itemsOn line = partItems ((line.dropWhile (· = '[')).rdropWhile (· = ']')) := rfl

theorem partItems_nil : partItems [] = [] := by decide

theorem partItems_append (front rest : List Char) :
    partItems (front ++ ',' :: rest) = partItems front ++ partItems rest := by
  simp only [partItems, Text.splitAtChar_append, List.map_append, List.filter_append]

private theorem partItems_comma (rest : List Char) : partItems (',' :: rest) = partItems rest := by
  simpa [partItems_nil] using partItems_append [] rest

theorem partItems_of_not_mem {cs : List Char} (h : ',' ∉ cs) :
    partItems cs = if itemText cs = [] then [] else [itemText cs] := by
  rw [partItems, Text.splitAtChar_of_not_mem h]
  split <;> simp_all

/-- White space in front of an item does not count. -/
theorem partItems_front {front : List Char} (h : ∀ c ∈ front, isBlank c = true) (cs : List Char) :
    partItems (front ++ cs) = partItems cs := by
  have hcomma : ',' ∉ front := not_mem_of_blanks h (by decide)
  have hitem : ∀ part, itemText (front ++ part) = itemText part := fun part => by
    rw [itemText, itemText, Text.trimChars_front h]
  by_cases hmem : ',' ∈ cs
  · obtain ⟨part, rest, rfl, hpart⟩ := List.eq_append_cons_of_mem hmem
    rw [← List.append_assoc, partItems_append, partItems_append,
      partItems_of_not_mem (by simp [hcomma, hpart]), partItems_of_not_mem hpart, hitem]
  · rw [partItems_of_not_mem (by simp [hcomma, hmem]), partItems_of_not_mem hmem, hitem]

theorem partItems_of_blanks {cs : List Char} (h : ∀ c ∈ cs, isBlank c = true) : partItems cs = [] := by
  rw [← List.append_nil cs, partItems_front h, partItems_nil]

theorem stripChar_eq (c : Char) (cs : List Char) :
    stripChar c cs = (cs.dropWhile (· = c)).rdropWhile (· = c) := rfl

theorem stripChar_of_not_mem {c : Char} {cs : List Char} (h : c ∉ cs) : stripChar c cs = cs := by
  have hne : ∀ d ∈ cs, d ≠ c := fun d hd heq => h (heq ▸ hd)
  rw [stripChar_eq, List.dropWhile_eq_self_iff.mpr, List.rdropWhile_eq_self_iff.mpr]
  · exact fun hnil => by simpa using hne _ (List.getLast_mem hnil)
  · exact fun hpos => by simpa using hne _ (List.getElem_mem hpos)

theorem stripChar_between {c : Char} {cs : List Char} (h : c ∉ cs) : stripChar c (c :: (cs ++ [c])) = cs := by
  cases cs with
  | nil => simp [stripChar]
  | cons d cs =>
    have hd : d ≠ c := fun heq => h (heq ▸ List.mem_cons_self)
    have hstay := stripChar_of_not_mem h
    rw [stripChar_eq, List.dropWhile_cons_of_neg (by simpa using hd)] at hstay
    rw [stripChar_eq, List.dropWhile_cons_of_pos (by simp), List.cons_append,
      List.dropWhile_cons_of_neg (by simpa using hd), ← List.cons_append,
      List.rdropWhile_concat_pos _ _ _ (by simp), hstay]

theorem not_mem_quoted {c : Char} (q : Quote) (m : Member) (hreserved : isReserved c = true) (hmark : c ≠ q.mark) :
    c ∉ quoted q m.chars := by
  simp [quoted, m.not_mem hreserved, hmark]

/-- An item is the string between its quotation marks. -/
theorem itemText_quoted (q : Quote) (m : Member) {back : List Char} (h : ∀ c ∈ back, isBlank c = true) :
    itemText (quoted q m.chars ++ back) = m.chars := by
  have htrim : trimChars (quoted q m.chars ++ back) = quoted q m.chars := by
    rw [Text.trimChars_back h, quoted, Text.trimChars_cons q.isBlank_mark,
      List.rdropWhile_concat_neg _ _ _ (by simp [q.isBlank_mark])]
  rw [itemText, htrim]
  cases q with
  | basic =>
    have hmark : stripChar '"' (quoted .basic m.chars) = m.chars := stripChar_between (m.not_mem (by decide))
    rw [hmark, stripChar_of_not_mem (m.not_mem (by decide))]
  | literal =>
    have hmark : '"' ∉ quoted .literal m.chars := not_mem_quoted .literal m (by decide) (by decide)
    rw [stripChar_of_not_mem hmark]
    exact stripChar_between (m.not_mem (by decide))

/-- What stands between an item and the comma behind it, or the end of the text. -/
inductive Separated : List Char → Prop where
  | last {back : List Char} (h : ∀ c ∈ back, isBlank c = true) : Separated back
  | comma {back : List Char} (h : ∀ c ∈ back, isBlank c = true) (rest : List Char) : Separated (back ++ ',' :: rest)

private theorem partItems_quoted (q : Quote) (m : Member) {cs : List Char} (h : Separated cs) :
    partItems (quoted q m.chars ++ cs) = m.chars :: partItems cs := by
  have hcomma : ',' ∉ quoted q m.chars := not_mem_quoted q m (by decide) (by cases q <;> decide)
  have hitem : ∀ back, (∀ c ∈ back, isBlank c = true) → partItems (quoted q m.chars ++ back) = [m.chars] := by
    intro back hback
    have hback' : ',' ∉ back := not_mem_of_blanks hback (by decide)
    have hnone : ',' ∉ quoted q m.chars ++ back := by simp [hcomma, hback']
    rw [partItems_of_not_mem hnone, itemText_quoted q m hback, if_neg m.nonempty]
  -- the comma cuts the text into the item with the blanks behind it and the rest
  cases h with
  | last hback => rw [hitem _ hback, partItems_of_blanks hback]
  | comma hback rest =>
    rw [← List.append_assoc, partItems_append, hitem _ hback, partItems_append, partItems_of_blanks hback]
    rfl

theorem Separated.front {front cs : List Char} (hfront : ∀ c ∈ front, isBlank c = true) (h : Separated cs) :
    Separated (front ++ cs) := by
  cases h with
  | last hback => exact .last (List.forall_mem_append.mpr ⟨hfront, hback⟩)
  | comma hback rest =>
    rw [← List.append_assoc]
    exact .comma (List.forall_mem_append.mpr ⟨hfront, hback⟩) rest

private theorem Separated.not_open {front cs : List Char} (hfront : ∀ c ∈ front, isBlank c = true) :
    ¬Separated (front ++ '[' :: cs) := by
  intro h
  have hdrop : dropBlanks (front ++ '[' :: cs) = '[' :: cs := by
    rw [Text.dropBlanks_append hfront, Text.dropBlanks_cons (by decide)]
  generalize front ++ '[' :: cs = text at h hdrop
  cases h with
  | last hback =>
    rw [dropBlanks, List.dropWhile_eq_nil_iff.mpr hback] at hdrop
    cases hdrop
  | comma hback rest =>
    rw [Text.dropBlanks_append hback, Text.dropBlanks_cons (by decide)] at hdrop
    simp at hdrop

end Items

section Lines

variable {c : Char} {cs front : List Char}

/-- A line without its closing bracket and the blanks behind it. -/
def unclosed (cs : List Char) : List Char := (cs.rdropWhile isBlank).rdropWhile (· = ']')

theorem unclosed_append_cons (hblank : isBlank c = false) (hc : c ≠ ']') (front rest : List Char) :
    unclosed (front ++ c :: rest) = front ++ c :: unclosed rest := by
  rw [unclosed, Text.rdropWhile_append_cons hblank, Text.rdropWhile_append_cons (by simpa using hc), unclosed]

theorem unclosed_of_blanks (h : ∀ c ∈ cs, isBlank c = true) : unclosed cs = [] := by
  rw [unclosed, List.rdropWhile_eq_nil_iff.mpr h, List.rdropWhile_nil]

private theorem unclosed_close {trail : List Char} (h : ∀ c ∈ trail, isBlank c = true) : unclosed (']' :: trail) = [] := by
  rw [unclosed, Text.rdropWhile_cons (by decide), List.rdropWhile_eq_nil_iff.mpr h]
  rfl

theorem unclosed_front (h : ∀ b ∈ front, isBlank b = true) (hc : isBlank c = false) (rest : List Char) :
    unclosed (front ++ c :: rest) = front ++ unclosed (c :: rest) := by
  have hbracket : ∀ b ∈ front, decide (b = ']') = false := fun b hb => by
    simpa using fun heq : b = ']' => not_mem_of_blanks h (by decide) (heq ▸ hb)
  rw [unclosed, Text.rdropWhile_append_cons hc, Text.rdropWhile_append_of_neg hbracket, unclosed,
    Text.rdropWhile_cons hc]

theorem Separated.unclosed_front (hfront : ∀ c ∈ front, isBlank c = true) (h : Separated (unclosed cs)) :
    Separated (unclosed (front ++ cs)) := by
  rcases Text.blanks_or_exists cs with hcs | ⟨before, c, rest, hbefore, hc, rfl⟩
  · rw [unclosed_of_blanks (List.forall_mem_append.mpr ⟨hfront, hcs⟩)]
    exact .last (List.forall_mem_nil _)
  · have hboth : ∀ c ∈ front ++ before, isBlank c = true := List.forall_mem_append.mpr ⟨hfront, hbefore⟩
    rw [← List.append_assoc, Manifest.unclosed_front hboth hc, List.append_assoc, ← Manifest.unclosed_front hbefore hc]
    exact h.front hfront

/-- Without a bracket in front, the items of a line are those in front of the closing bracket. -/
theorem itemsOn_trimChars (h : (dropBlanks cs).head? ≠ some '[') :
    itemsOn (trimChars cs) = partItems (unclosed cs) := by
  rcases Text.blanks_or_exists cs with hcs | ⟨before, c, rest, hbefore, hc, rfl⟩
  · rw [Text.trimChars_of_blanks hcs, unclosed_of_blanks hcs]
    rfl
  · rw [Text.dropBlanks_append hbefore, Text.dropBlanks_cons hc] at h
    have hopen : c ≠ '[' := by simpa using h
    rw [Text.trimChars_front hbefore, Text.trimChars_cons hc, itemsOn_eq,
      List.dropWhile_cons_of_neg (by simpa using hopen), unclosed_front hbefore hc, partItems_front hbefore, unclosed,
      Text.rdropWhile_cons hc]

/-- The bracket that opens an array does not count. -/
theorem itemsOn_open (h : (dropBlanks cs).head? ≠ some '[') :
    itemsOn (trimChars ('[' :: cs)) = partItems (unclosed cs) := by
  have hstay : (cs.rdropWhile isBlank).dropWhile (· = '[') = cs.rdropWhile isBlank := by
    cases hleft : cs.rdropWhile isBlank with
    | nil => rfl
    | cons d left =>
      have hd : d ≠ '[' := by
        rintro rfl
        obtain ⟨back, hback⟩ : '[' :: left <+: cs := hleft ▸ List.rdropWhile_prefix isBlank cs
        rw [← hback, List.cons_append, Text.dropBlanks_cons (by decide)] at h
        exact h rfl
      exact List.dropWhile_cons_of_neg (by simpa using hd)
  rw [Text.trimChars_cons (by decide), itemsOn_eq, List.dropWhile_cons_of_pos (by simp), hstay, unclosed]

theorem getLast?_trimChars (cs : List Char) : (trimChars cs).getLast? = (cs.rdropWhile isBlank).getLast? := by
  rcases Text.blanks_or_exists cs with hcs | ⟨before, c, rest, hbefore, hc, rfl⟩
  · rw [Text.trimChars_of_blanks hcs, List.rdropWhile_eq_nil_iff.mpr hcs]
  · rw [Text.trimChars_front hbefore, Text.trimChars_cons hc, Text.rdropWhile_append_cons hc,
      List.getLast?_append_of_ne_nil _ (List.cons_ne_nil _ _)]

/-- What a line ends with is decided behind any of its characters that is no closing bracket. -/
theorem getLast?_trimChars_append_cons (hblank : isBlank c = false) (hc : c ≠ ']') (front cs : List Char) :
    (trimChars (front ++ c :: cs)).getLast? = some ']' ↔ (trimChars cs).getLast? = some ']' := by
  rw [getLast?_trimChars, getLast?_trimChars, Text.rdropWhile_append_cons hblank,
    List.getLast?_append_of_ne_nil _ (List.cons_ne_nil _ _)]
  cases hleft : cs.rdropWhile isBlank with
  | nil => simp [hc]
  | cons d left => rw [List.getLast?_cons_cons]

theorem Separated.head?_ne (h : Separated (unclosed cs)) : (dropBlanks cs).head? ≠ some '[' := by
  rcases Text.blanks_or_exists cs with hcs | ⟨before, c, rest, hbefore, hc, rfl⟩
  · rw [dropBlanks, List.dropWhile_eq_nil_iff.mpr hcs]
    simp
  · rw [Text.dropBlanks_append hbefore, Text.dropBlanks_cons hc]
    intro heq
    obtain rfl : c = '[' := by simpa using heq
    rw [unclosed_append_cons hc (by decide)] at h
    exact Separated.not_open hbefore h

end Lines

section Reading

/-- A character that ends neither a line nor what stands on it in front of a comment. -/
def inCode (c : Char) : Bool := c != '\n' && c != '#'

/-- The first line of a text, up to its comment. -/
def codeOf (text : List Char) : List Char := text.takeWhile inCode

/-- The lines of a text behind the first. -/
def linesBehind (text : List Char) : List (List Char) := linesOf (text.dropWhile (· ≠ '\n')).tail

/-- The items of an array, from a line without its comment and the lines behind that. -/
def readLine (code : List Char) (behind : List (List Char)) : List (List Char) :=
  if (trimChars code).getLast? = some ']' then itemsOn (trimChars code)
  else itemsOn (trimChars code) ++ restOfArray behind

theorem codeOf_append {front : List Char} (h : ∀ c ∈ front, inCode c = true) (rest : List Char) :
    codeOf (front ++ rest) = front ++ codeOf rest :=
  List.takeWhile_append_of_pos h

theorem linesBehind_append {front : List Char} (h : ∀ c ∈ front, inCode c = true) (rest : List Char) :
    linesBehind (front ++ rest) = linesBehind rest := by
  have hfeed : ∀ c ∈ front, decide (c ≠ '\n') = true := fun c hc => by
    have hc := h c hc
    simp_all [inCode]
  rw [linesBehind, List.dropWhile_append_of_pos hfeed, linesBehind]

theorem codeOf_line {line rest : List Char} (hline : '\n' ∉ line) (hrest : codeOf rest = []) :
    codeOf (line ++ rest) = line.takeWhile (· ≠ '#') := by
  induction line with
  | nil => rw [List.nil_append, hrest, List.takeWhile_nil]
  | cons c line ih =>
    obtain ⟨hc, hline⟩ := not_or.mp (mt List.mem_cons.mpr hline)
    have hfeed : c ≠ '\n' := Ne.symm hc
    by_cases hcomment : c = '#'
    · simp [codeOf, inCode, hcomment]
    · rw [List.cons_append, codeOf, List.takeWhile_cons_of_pos (by simp [inCode, hfeed, hcomment]), ← codeOf, ih hline,
        List.takeWhile_cons_of_pos (by simp [hcomment])]

theorem withoutComment_dropReturn (line : List Char) : withoutComment (dropReturn line) = withoutComment line := by
  unfold dropReturn
  split
  · rename_i hlast
    have hblank : ∀ c ∈ ['\r'], isBlank c = true := List.forall_mem_singleton.mpr (by decide)
    conv_rhs => rw [← List.dropLast_append_getLast? '\r' hlast, withoutComment, List.takeWhile_append]
    split
    · rename_i hall
      rw [show ['\r'].takeWhile (· ≠ '#') = ['\r'] by decide, Text.trimChars_back hblank, withoutComment,
        List.IsPrefix.eq_of_length (List.takeWhile_prefix _) hall]
    · rfl
  · rfl

/-- The first line of a text and the lines behind it. -/
theorem exists_line {text : List Char} (h : text ≠ []) :
    ∃ line, linesOf text = line :: linesBehind text ∧ withoutComment line = trimChars (codeOf text) := by
  by_cases hfeed : '\n' ∈ text
  · obtain ⟨line, rest, rfl, hline⟩ := List.eq_append_cons_of_mem hfeed
    have hbehind : linesBehind (line ++ '\n' :: rest) = linesOf rest := by
      have hline' : ∀ c ∈ line, decide (c ≠ '\n') = true := fun c hc => by
        simpa using fun heq : c = '\n' => hline (heq ▸ hc)
      rw [linesBehind, List.dropWhile_append_of_pos hline', List.dropWhile_cons_of_neg (by simp), List.tail_cons]
    refine ⟨dropReturn line, by rw [Text.linesOf_line hline, hbehind], ?_⟩
    rw [withoutComment_dropReturn, withoutComment, codeOf_line hline rfl]
  · have hall : ∀ c ∈ text, decide (c ≠ '\n') = true := fun c hc => by
      simpa using fun heq : c = '\n' => hfeed (heq ▸ hc)
    refine ⟨text, ?_, ?_⟩
    · rw [Text.linesOf_last hfeed, if_neg h, linesBehind, List.dropWhile_eq_nil_iff.mpr hall]
      rfl
    · have hcode : codeOf (text ++ []) = _ := codeOf_line hfeed rfl
      rw [List.append_nil] at hcode
      rw [withoutComment, hcode]

theorem restOfArray_linesOf (text : List Char) :
    restOfArray (linesOf text) = readLine (codeOf text) (linesBehind text) := by
  by_cases h : text = []
  · rw [h]
    rfl
  · obtain ⟨line, hlines, hcode⟩ := exists_line h
    rw [hlines, restOfArray, hcode, readLine]

/-- What stands in front of a text on its first line is read together with that line. -/
theorem restOfArray_linesOf_append {front : List Char} (h : ∀ c ∈ front, inCode c = true) (rest : List Char) :
    restOfArray (linesOf (front ++ rest)) = readLine (front ++ codeOf rest) (linesBehind rest) := by
  rw [restOfArray_linesOf, codeOf_append h, linesBehind_append h]

theorem inCode_of_not_mem {cs : List Char} (hfeed : '\n' ∉ cs) (hcomment : '#' ∉ cs) : ∀ c ∈ cs, inCode c = true := by
  intro c hc
  have hne : c ≠ '\n' ∧ c ≠ '#' := ⟨fun heq => hfeed (heq ▸ hc), fun heq => hcomment (heq ▸ hc)⟩
  simp [inCode, hne]

theorem Gap.inCode (g : Gap) : ∀ c ∈ g.chars, inCode c = true :=
  inCode_of_not_mem (g.not_mem (by decide) (by decide)) (g.not_mem (by decide) (by decide))

theorem Member.inCode (m : Member) : ∀ c ∈ m.chars, inCode c = true :=
  inCode_of_not_mem (m.not_mem (by decide)) (m.not_mem (by decide))

theorem BareKey.inCode (key : BareKey) : ∀ c ∈ key.chars, inCode c = true :=
  inCode_of_not_mem (key.not_mem (by decide)) (key.not_mem (by decide))

theorem restOfArray_gap (g : Gap) (rest : List Char) :
    restOfArray (linesOf (g.chars ++ rest)) = restOfArray (linesOf rest) := by
  rw [restOfArray_linesOf_append g.inCode, restOfArray_linesOf, readLine, Text.trimChars_front g.isBlank, readLine]

/-- The rest of a line without any code on it: white space at most. -/
theorem codeOf_lineEnd (comment : Option Comment) (e : LineEnd) (rest : List Char) :
    ∀ c ∈ codeOf (commentChars comment ++ (e.chars ++ rest)), isBlank c = true := by
  cases comment with
  | some c => exact List.forall_mem_nil _
  | none =>
    cases e with
    | feed => exact List.forall_mem_nil _
    | returnAndFeed =>
      have hcode : codeOf ('\r' :: '\n' :: rest) = ['\r'] := rfl
      exact hcode ▸ List.forall_mem_singleton.mpr (by decide)

private theorem linesBehind_lineEnd (comment : Option Comment) (e : LineEnd) (rest : List Char) :
    linesBehind (commentChars comment ++ (e.chars ++ rest)) = linesOf rest := by
  have hcomment : ∀ c ∈ commentChars comment, decide (c ≠ '\n') = true := fun c hc => by
    simpa using fun heq : c = '\n' => not_mem_commentChars comment (heq ▸ hc)
  rw [linesBehind, List.dropWhile_append_of_pos hcomment]
  cases e <;> rfl

private theorem restOfArray_lineEnd (comment : Option Comment) (e : LineEnd) (rest : List Char) :
    restOfArray (linesOf (commentChars comment ++ (e.chars ++ rest))) = restOfArray (linesOf rest) := by
  rw [restOfArray_linesOf, linesBehind_lineEnd, readLine, Text.trimChars_of_blanks (codeOf_lineEnd comment e rest)]
  rfl

theorem codeOf_following (f : Following) : ∀ c ∈ codeOf f.chars, isBlank c = true := by
  rw [Following.chars, codeOf_append f.trail.inCode, List.forall_mem_append]
  refine ⟨f.trail.isBlank, ?_⟩
  rw [Following.linesChars]
  cases f.lines with
  | some last => exact codeOf_lineEnd f.comment last.1 last.2
  | none => cases f.comment <;> exact List.forall_mem_nil _

theorem codeOf_cons {c : Char} (h : inCode c = true) (rest : List Char) : codeOf (c :: rest) = c :: codeOf rest :=
  List.takeWhile_cons_of_pos h

/-- Behind the closing bracket nothing is read. -/
theorem restOfArray_close (f : Following) : restOfArray (linesOf (']' :: f.chars)) = [] := by
  have htrim : trimChars (']' :: codeOf f.chars) = [']'] := by
    rw [Text.trimChars_cons (by decide), List.rdropWhile_eq_nil_iff.mpr (codeOf_following f)]
  rw [restOfArray_linesOf, codeOf_cons (by decide), readLine, htrim]
  rfl

/-- A line with a character of its own in front, which is no closing bracket, ends the array if the rest of it does. -/
theorem readLine_append_cons {c : Char} (hblank : isBlank c = false) (hc : c ≠ ']') {front code : List Char}
    {items : List (List Char)} (hitems : itemsOn (trimChars (front ++ c :: code)) = items ++ itemsOn (trimChars code))
    (behind : List (List Char)) : readLine (front ++ c :: code) behind = items ++ readLine code behind := by
  simp only [readLine, getLast?_trimChars_append_cons hblank hc, hitems]
  split
  · rfl
  · rw [List.append_assoc]

private theorem restOfArray_comma {rest : List Char} (h : (dropBlanks (codeOf rest)).head? ≠ some '[') :
    restOfArray (linesOf (',' :: rest)) = restOfArray (linesOf rest) := by
  have hitems : itemsOn (trimChars ([] ++ ',' :: codeOf rest)) = [] ++ itemsOn (trimChars (codeOf rest)) := by
    have hcomma : (dropBlanks ([] ++ ',' :: codeOf rest)).head? ≠ some '[' := by
      rw [List.nil_append, Text.dropBlanks_cons (by decide)]
      simp
    rw [itemsOn_trimChars hcomma, unclosed_append_cons (by decide) (by decide), List.nil_append, partItems_comma,
      itemsOn_trimChars h, List.nil_append]
  have hinCode : ∀ c ∈ [','], inCode c = true := List.forall_mem_singleton.mpr (by decide)
  rw [← List.singleton_append, restOfArray_linesOf_append hinCode, restOfArray_linesOf]
  exact readLine_append_cons (by decide) (by decide) hitems _

private theorem restOfArray_open {rest : List Char} (h : (dropBlanks (codeOf rest)).head? ≠ some '[') :
    restOfArray (linesOf ('[' :: rest)) = restOfArray (linesOf rest) := by
  have hitems : itemsOn (trimChars ([] ++ '[' :: codeOf rest)) = [] ++ itemsOn (trimChars (codeOf rest)) := by
    rw [List.nil_append, itemsOn_open h, List.nil_append, itemsOn_trimChars h]
  have hinCode : ∀ c ∈ ['['], inCode c = true := List.forall_mem_singleton.mpr (by decide)
  rw [← List.singleton_append, restOfArray_linesOf_append hinCode, restOfArray_linesOf]
  exact readLine_append_cons (by decide) (by decide) hitems _

private theorem restOfArray_quoted (q : Quote) (m : Member) {rest : List Char} (h : Separated (unclosed (codeOf rest))) :
    restOfArray (linesOf (quoted q m.chars ++ rest)) = m.chars :: restOfArray (linesOf rest) := by
  have hmark : isBlank q.mark = false ∧ q.mark ≠ '[' ∧ q.mark ≠ ']' ∧ inCode q.mark = true := by cases q <;> decide
  obtain ⟨hblank, hopen, hclose, hcode⟩ := hmark
  have hinCode : ∀ c ∈ quoted q m.chars, inCode c = true := fun c hc => by
    simp only [quoted, List.mem_cons, List.mem_append, List.not_mem_nil, or_false] at hc
    rcases hc with rfl | hc | rfl
    · exact hcode
    · exact m.inCode c hc
    · exact hcode
  have hsplit (cs : List Char) : quoted q m.chars ++ cs = (q.mark :: m.chars) ++ q.mark :: cs := by simp [quoted]
  have hitems : itemsOn (trimChars (q.mark :: m.chars ++ q.mark :: codeOf rest)) =
      [m.chars] ++ itemsOn (trimChars (codeOf rest)) := by
    have hhead : (dropBlanks (q.mark :: m.chars ++ q.mark :: codeOf rest)).head? ≠ some '[' := by
      rw [List.cons_append, Text.dropBlanks_cons hblank]
      simpa using hopen
    rw [itemsOn_trimChars hhead, unclosed_append_cons hblank hclose, ← hsplit, partItems_quoted q m h,
      itemsOn_trimChars h.head?_ne, List.singleton_append]
  rw [restOfArray_linesOf_append hinCode, restOfArray_linesOf, hsplit]
  exact readLine_append_cons hblank hclose hitems _

end Reading

section Elements

variable {rest : List Char}

theorem restOfArray_fillers (fillers : List Filler) (rest : List Char) :
    restOfArray (linesOf (fillers.flatMap Filler.chars ++ rest)) = restOfArray (linesOf rest) := by
  induction fillers with
  | nil => rfl
  | cons filler fillers ih =>
    rw [List.flatMap_cons, List.append_assoc]
    cases filler with
    | gap g => rw [Filler.chars, restOfArray_gap, ih]
    | lineEnd comment e => rw [Filler.chars, List.append_assoc, restOfArray_lineEnd, ih]

/-- What fillers do not change: the first character on a line, unless the line ends in front of it. -/
theorem dropBlanks_fillers (fillers : List Filler) (h : (dropBlanks (codeOf rest)).head? ≠ some '[') :
    (dropBlanks (codeOf (fillers.flatMap Filler.chars ++ rest))).head? ≠ some '[' := by
  induction fillers with
  | nil => exact h
  | cons filler fillers ih =>
    rw [List.flatMap_cons, List.append_assoc]
    cases filler with
    | gap g =>
      rw [Filler.chars, codeOf_append g.inCode, Text.dropBlanks_append g.isBlank]
      exact ih
    | lineEnd comment e =>
      rw [Filler.chars, List.append_assoc, dropBlanks, List.dropWhile_eq_nil_iff.mpr (codeOf_lineEnd comment e _)]
      simp

private theorem separated_fillers (fillers : List Filler) (h : Separated (unclosed (codeOf rest))) :
    Separated (unclosed (codeOf (fillers.flatMap Filler.chars ++ rest))) := by
  induction fillers with
  | nil => exact h
  | cons filler fillers ih =>
    rw [List.flatMap_cons, List.append_assoc]
    cases filler with
    | gap g =>
      rw [Filler.chars, codeOf_append g.inCode]
      exact ih.unclosed_front g.isBlank
    | lineEnd comment e =>
      rw [Filler.chars, List.append_assoc, unclosed_of_blanks (codeOf_lineEnd comment e _)]
      exact .last (List.forall_mem_nil _)

theorem restOfArray_item (i : Item) (h : Separated (unclosed (codeOf rest))) :
    restOfArray (linesOf (i.chars ++ rest)) = i.member.chars :: restOfArray (linesOf rest) := by
  rw [Item.chars, List.append_assoc, List.append_assoc, restOfArray_fillers,
    restOfArray_quoted i.quote i.member (separated_fillers i.behind h), restOfArray_fillers]

theorem separated_close (f : Following) : Separated (unclosed (codeOf (']' :: f.chars))) := by
  rw [codeOf_cons (by decide), unclosed_close (codeOf_following f)]
  exact .last (List.forall_mem_nil _)

private theorem separated_comma (rest : List Char) : Separated (unclosed (codeOf (',' :: rest))) := by
  have hcomma := unclosed_append_cons (c := ',') (by decide) (by decide) [] (codeOf rest)
  rw [codeOf_cons (by decide), ← List.nil_append (',' :: codeOf rest), hcomma]
  exact .comma (List.forall_mem_nil _) _

/-- No item begins with a bracket. -/
theorem head?_item (i : Item) (rest : List Char) : (dropBlanks (codeOf (i.chars ++ rest))).head? ≠ some '[' := by
  have hmark : isBlank i.quote.mark = false ∧ i.quote.mark ≠ '[' ∧ inCode i.quote.mark = true := by
    cases i.quote <;> decide
  obtain ⟨hblank, hopen, hcode⟩ := hmark
  rw [Item.chars, List.append_assoc]
  refine dropBlanks_fillers i.before ?_
  rw [quoted, List.cons_append, List.cons_append, codeOf_cons hcode, Text.dropBlanks_cons hblank]
  simpa using hopen

theorem head?_elements (e : Elements) (f : Following) :
    (dropBlanks (codeOf (e.chars ++ ']' :: f.chars))).head? ≠ some '[' := by
  cases e with
  | none filler => exact dropBlanks_fillers filler (separated_close f).head?_ne
  | last item => exact head?_item item _
  | more item rest =>
    rw [Elements.chars, List.append_assoc]
    exact head?_item item _

/-- The strings of an array are read in their order, however they are laid out. -/
theorem restOfArray_elements (e : Elements) (f : Following) :
    restOfArray (linesOf (e.chars ++ ']' :: f.chars)) = e.members.map Member.chars := by
  -- an item is read in front of whatever separates it from the next one
  induction e with
  | none filler => rw [Elements.chars, restOfArray_fillers, restOfArray_close, Elements.members, List.map_nil]
  | last item =>
    rw [Elements.chars, restOfArray_item item (separated_close f), restOfArray_close, Elements.members,
      List.map_singleton]
  | more item rest ih =>
    rw [Elements.chars, List.append_assoc, List.cons_append, restOfArray_item item (separated_comma _),
      restOfArray_comma (head?_elements rest f), ih, Elements.members, List.map_cons]

end Elements

section Assignment

variable {key : BareKey}

/-- A line that assigns the key has nothing but white space around it in front of the sign of equality. -/
theorem exists_of_assignment? {line key value : List Char} (h : assignment? (withoutComment line) = some (key, value)) :
    ∃ front back rest, (∀ c ∈ front ++ back, isBlank c = true) ∧ line = front ++ key ++ back ++ '=' :: rest := by
  obtain ⟨before, after, hcut, hkey⟩ :
      ∃ before after, cutAt '=' (withoutComment line) = some (before, after) ∧ trimChars before = key := by
    rw [assignment?] at h
    split at h
    · rename_i before after hcut
      exact ⟨before, after, hcut, (Prod.ext_iff.mp (Option.some.inj h)).1⟩
    · cases h
  obtain ⟨indent, trail, hindent, -, hcode⟩ := Text.exists_trimChars (line.takeWhile (· ≠ '#'))
  obtain ⟨front, back, hfront, hback, hbefore⟩ := Text.exists_trimChars before
  rw [← withoutComment, eq_of_cutAt hcut, hbefore, hkey] at hcode
  have hblank : ∀ c ∈ indent ++ front ++ back, isBlank c = true :=
    List.forall_mem_append.mpr ⟨List.forall_mem_append.mpr ⟨hindent, hfront⟩, hback⟩
  refine ⟨indent ++ front, back, after ++ trail ++ line.dropWhile (· ≠ '#'), hblank, ?_⟩
  conv_lhs => rw [← List.takeWhile_append_dropWhile (p := (· ≠ '#')) (l := line), hcode]
  simp

/-- A line that does not assign the key is skipped. -/
theorem arrayIn_other (l : OtherLine key) (rest : List Char) :
    arrayIn key.chars (linesOf (l.text ++ rest)) = arrayIn key.chars (linesOf rest) := by
  obtain ⟨line, hline, hlines⟩ := linesOf_lineEnd l.oneLine l.lineEnd rest
  have hcode : withoutComment line = withoutComment l.chars := by
    rcases hline with rfl | rfl
    · rfl
    · exact withoutComment_dropReturn l.chars
  rw [OtherLine.text, List.append_assoc, hlines, arrayIn, hcode]
  split
  · rename_i k v hassignment
    have hother : k ≠ key.chars := by
      rintro rfl
      obtain ⟨front, back, value, hblank, heq⟩ := exists_of_assignment? hassignment
      exact l.other front back value hblank heq
    rw [if_neg hother]
  · rfl

/-- The assignment of an array is read from the sign of equality on. -/
theorem arrayIn_assignment (indent behindKey : Gap) {rest : List Char}
    (h : (dropBlanks (codeOf rest)).head? = some '[') :
    arrayIn key.chars (linesOf (indent.chars ++ key.chars ++ behindKey.chars ++ '=' :: rest)) =
      some (restOfArray (linesOf rest)) := by
  have hinCode : ∀ c ∈ indent.chars ++ key.chars ++ behindKey.chars ++ ['='], inCode c = true := by
    simp only [List.forall_mem_append]
    exact ⟨⟨⟨indent.inCode, key.inCode⟩, behindKey.inCode⟩, List.forall_mem_singleton.mpr (by decide)⟩
  have hhead : (trimChars (codeOf rest)).head? = some '[' := by
    obtain ⟨w, hw⟩ : ∃ w, dropBlanks (codeOf rest) = '[' :: w := List.head?_eq_some_iff.mp h
    rw [← Text.trimChars_dropBlanks, hw, Text.trimChars_cons (by decide), List.head?_cons]
  have hne : indent.chars ++ key.chars ++ behindKey.chars ++ ['='] ++ rest ≠ [] := by simp
  obtain ⟨line, hlines, hcode⟩ := exists_line hne
  rw [codeOf_append hinCode, ← List.append_cons] at hcode
  rw [List.append_cons, hlines, arrayIn, hcode, assignment?_key key indent.isBlank behindKey.isBlank,
    linesBehind_append hinCode, restOfArray_linesOf]
  simp only [if_true, hhead, readLine]

end Assignment

/-- The array that the first assignment to a key gives is read as it is written: its strings in their order, whatever
    lines they are spread over, with quotation marks of either kind, with or without a comma behind the last, with
    comments and empty lines anywhere between them, and whatever stands in front of the assignment or behind the
    array. -/
theorem stringArray_of_layout (key : BareKey) (m : ArrayManifest key) :
    stringArray m.text key.text = some (m.elements.members.map Member.text) := by
  have harray : restOfArray (linesOf (m.beforeArray.chars ++ m.array)) = m.elements.members.map Member.chars := by
    rw [restOfArray_gap, ArrayManifest.array, restOfArray_open (head?_elements m.elements m.following),
      restOfArray_elements]
  have hhead : (dropBlanks (codeOf (m.beforeArray.chars ++ m.array))).head? = some '[' := by
    rw [codeOf_append m.beforeArray.inCode, Text.dropBlanks_append m.beforeArray.isBlank, ArrayManifest.array,
      codeOf_cons (by decide), Text.dropBlanks_cons (by decide), List.head?_cons]
  have hpreceding (ls : List (OtherLine key)) (rest : List Char) :
      arrayIn key.chars (linesOf (ls.flatMap OtherLine.text ++ rest)) = arrayIn key.chars (linesOf rest) := by
    induction ls with
    | nil => rfl
    | cons l ls ih => rw [List.flatMap_cons, List.append_assoc, arrayIn_other, ih]
  rw [stringArray, ArrayManifest.text, String.toList_ofList, BareKey.toList_text, hpreceding,
    arrayIn_assignment m.indent m.behindKey hhead, harray, Option.map_some, List.map_map]
  rfl

section Workspace

def membersKey : BareKey := ⟨['m', 'e', 'm', 'b', 'e', 'r', 's'], by decide, List.all_eq_true.mp (by decide)⟩

/-- A line without a sign of equality assigns nothing. -/
def lineWithoutEqual (chars : List Char) (hline : '\n' ∉ chars) (h : '=' ∉ chars) : OtherLine membersKey :=
  ⟨chars, hline, fun front back rest _ heq => h (by simp [heq]), .feed⟩

def memberOf (c : Char) (h : isReserved c = false) : Member := ⟨[c], by simp, List.forall_mem_singleton.mpr h⟩

def workspace : ArrayManifest membersKey where
  preceding := [lineWithoutEqual ['[', 'w', ']'] (by decide) (by decide)]
  indent := noGap
  behindKey := oneBlank
  beforeArray := oneBlank
  elements :=
    .more ⟨[.lineEnd none .feed], .basic, memberOf 'a' (by decide), []⟩
      (.more ⟨[.lineEnd (some ⟨[']'], by decide⟩) .returnAndFeed, .gap oneBlank], .literal, memberOf '*' (by decide),
          [.lineEnd none .feed]⟩
        (.none [.lineEnd none .feed]))
  following := ⟨noGap, none, none⟩

theorem members_of_workspace :
    workspace.text = "[w]\nmembers = [\n\"a\",#]\r\n '*'\n,\n]" ∧
    stringArray workspace.text membersKey.text = some ["a", "*"] :=
  ⟨by decide +kernel, (stringArray_of_layout membersKey workspace).trans (by decide +kernel)⟩

end Workspace

end TraitMock.Manifest
