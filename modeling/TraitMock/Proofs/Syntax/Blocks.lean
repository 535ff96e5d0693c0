import TraitMock.Proofs.Syntax.Expressions

namespace TraitMock.Syntax.Reader

variable {α : Type} {item : Reader α} {n : Nat} {p : Place} {ms : List String} {ss us : List Shape}

section Literals

/-- Shapes that are read as a field of a structure literal. -/
inductive IsField : List Shape → Prop where
  | short (x : String) : IsField [.word x]
  | full (x : String) {ss : List Shape} (h : IsExpression .free ss) : IsField (.word x :: .mark ":" :: ss)

private theorem takes_fieldValue (h : IsField ss) (hn : 10 * ss.length ≤ n) :
    Takes (fieldValue item n) ss (Starts [",", "\x7d"]) := by
  intro ts rest hfit hrest
  cases h with
  | short x =>
    obtain ⟨n, rfl⟩ := Nat.exists_eq_succ_of_ne_zero (n := n) (by simp at hn; omega)
    obtain ⟨gap, commented, us, rfl, hus⟩ := fit_word.mp hfit
    obtain rfl := fit_nil.mp hus
    have hcolon : Clear [":"] rest := hrest.clear (by decide)
    refine ⟨(), ?_⟩
    rw [fieldValue]
    simp [attributes_none (t := ⟨.word, x, gap, commented⟩), hcolon.optionalMark (m := ":") (by simp)]
  | @full x ss h =>
    simp only [List.length_cons] at hn
    obtain ⟨n, rfl⟩ := Nat.exists_eq_succ_of_ne_zero (n := n) (by omega)
    obtain ⟨gap, commented, us, rfl, hus⟩ := fit_word.mp hfit
    obtain ⟨gap', commented', vs, rfl, hvs⟩ := fit_mark.mp hus
    obtain ⟨a, ha⟩ := h.reads item n (by omega) vs rest hvs (hrest.mono (by decide))
    refine ⟨(), ?_⟩
    rw [fieldValue]
    simp [attributes_none (t := ⟨.word, x, gap, commented⟩), ha]

private theorem fieldValue_closed {ts : List Token} (h : Starts ["\x7d"] ts) : fieldValue item n ts = none := by
  obtain ⟨⟨kind, text, gap, commented⟩, after, rfl, rfl, hmem⟩ := h
  obtain rfl : text = "\x7d" := by simpa using hmem
  cases n with
  | zero => rfl
  | succ n =>
    rw [fieldValue]
    simp [attributes_none (t := ⟨.mark, "\x7d", gap, commented⟩)]

/-- A structure literal with a comma behind each field. -/
theorem isExpression_struct {x : String} (hx : x ∉ reservedWords) (hblock : x ∉ blockWords) {items : List (List Shape)}
    (hne : items ≠ []) (hitems : ∀ us ∈ items, IsField us) :
    IsExpression .free (.word x :: .mark "\x7b" :: (separatedBy (.mark ",") items ++ [.mark ",", .mark "\x7d"])) := by
  refine ⟨⟨.word x, rfl, .inl (.inr (.inr (.inl ⟨rfl, .inl hx⟩)))⟩, fun item n hn ts rest hfit hrest => ?_⟩
  simp only [List.length_cons, List.length_append, List.length_nil] at hn
  obtain ⟨n, rfl⟩ := Nat.exists_eq_add_of_le' (show 4 ≤ n by omega)
  obtain ⟨gap, commented, us, rfl, hus⟩ := fit_word.mp hfit
  have ht : BeginsOperand ⟨.word, x, gap, commented⟩ := .inr (.inr (.inl ⟨rfl, .inl hx⟩))
  obtain ⟨gap', commented', vs, rfl, hvs⟩ := fit_mark.mp hus
  have hfields : Takes (listed "\x7d" (fieldValue item n))
      (separatedBy (.mark ",") items ++ ([.mark ","] ++ [.mark "\x7d"])) fun _ => True := by
    refine takes_listed [.mark ","] (fun ss hss => ?_) (by decide) (.inr ⟨hne, rfl⟩) fun ts hts => fieldValue_closed hts
    have hlength := length_le_separatedBy (.mark ",") hss
    exact takes_fieldValue (hitems ss hss) (by omega)
  obtain ⟨as, has⟩ := hfields vs rest hvs trivial
  have hopen : Starts ["\x7b"] (⟨.mark, "\x7b", gap', commented'⟩ :: (vs ++ rest)) := ⟨_, _, rfl, rfl, by simp⟩
  obtain ⟨_, hpath⟩ := takes_expressionPath hx [] [⟨.word, x, gap, commented⟩] _
    (fit_word.mpr ⟨_, _, [], rfl, fit_nil.mpr rfl⟩) (hopen.clear (by decide))
  have happlied : repeated (applied item (n + 2)) rest = ([], rest) :=
    repeated_none (applied_eq_none (hrest.clear (by decide)))
  have hend : operandsAfter item (n + 3) .free rest = some ((), rest) := operandsAfter_end (behind_mem .free) hrest
  have hsigns (more : List Token) : repeated sign (_ :: more) = ([], _ :: more) := repeated_none ht.sign_eq_none
  have hclosed (more : List Token) : isOpen (_ :: more) = some (false, _ :: more) := ht.isOpen_eq
  refine ⟨(), ?_⟩
  rw [expression]
  rw [List.cons_append, List.nil_append] at hpath
  simp [rangeDots, operandOf, hsigns, hclosed, primary_path (startsBlock_word hblock), pathOperand, hpath, has, happlied,
    hend]

end Literals

section Arms

/-- Shapes of an expression that does not begin with a block. -/
structure IsPlainExpression (ss : List Shape) : Prop extends IsExpression .free ss where
  plain : ∃ s ∈ ss.head?, s.kind = .word ∧ s.text ∉ "let" :: "as" :: "else" :: blockWords ∨ s.kind = .mark ∧ s.text = "("

theorem IsPlainExpression.startsBlock_eq (h : IsPlainExpression ss) {ts : List Token} (hfit : Fit ts ss)
    (rest : List Token) : startsBlock (ts ++ rest) = false := by
  obtain ⟨s, hs, hplain⟩ := h.plain
  obtain ⟨us, rfl⟩ := List.head?_eq_some_iff.mp hs
  obtain ⟨⟨kind, text, gap, commented⟩, more, ⟨hkind, htext, _⟩, _, rfl⟩ := fit_cons.mp hfit
  simp only at hkind htext
  rw [← hkind, ← htext] at hplain
  rcases hplain with ⟨rfl, hnot⟩ | ⟨rfl, rfl⟩
  · exact startsBlock_word fun hmem => hnot (by simp [hmem])
  · simp [startsBlock]

/-- Shapes that are read as an arm of a match. -/
inductive IsArm : List Shape → Prop where
  | arm {pattern ss : List Shape} (hpattern : IsPattern pattern) (h : IsPlainExpression ss) :
    IsArm (pattern ++ .mark "=>" :: (ss ++ [.mark ","]))

theorem IsPattern.exists_head {pattern : List Shape} (h : IsPattern pattern) {ts : List Token} (hfit : Fit ts pattern) :
    ∃ t more, ts = t :: more ∧ (t.kind = .mark → t.text = "(") := by
  obtain ⟨s, hs, hhead⟩ := h.head
  obtain ⟨us, rfl⟩ := List.head?_eq_some_iff.mp hs
  obtain ⟨t, more, ⟨hkind, htext, _⟩, _, rfl⟩ := fit_cons.mp hfit
  exact ⟨t, more, rfl, by rwa [hkind, htext]⟩

private theorem takes_arm (h : IsArm ss) (hn : 10 * ss.length ≤ n) : Takes (arm item n) ss fun _ => True := by
  intro ts rest hfit _
  obtain ⟨hpattern, hvalue⟩ := h
  rename_i pattern ss
  rw [List.length_append, List.length_cons, List.length_append] at hn
  obtain ⟨n, rfl⟩ := Nat.exists_eq_succ_of_ne_zero (n := n) (by omega)
  obtain ⟨front, back, hfront, hback, rfl⟩ := fit_append.mp hfit
  obtain ⟨gap, commented, us, rfl, hus⟩ := fit_mark.mp hback
  obtain ⟨value, comma, hvalue', hcomma, rfl⟩ := fit_append.mp hus
  obtain ⟨gap', commented', vs, rfl, hvs⟩ := fit_mark.mp hcomma
  obtain rfl := fit_nil.mp hvs
  have harrow : Starts ["=>"] (⟨.mark, "=>", gap, commented⟩ :: (value ++ ⟨.mark, ",", gap', commented'⟩ :: rest)) :=
    ⟨_, _, rfl, rfl, by simp⟩
  obtain ⟨_, hread⟩ := hpattern.takes_pattern front _ hfront (harrow.clear (by decide))
  obtain ⟨_, hexpression⟩ := hvalue.reads item n (by omega) value (⟨.mark, ",", gap', commented'⟩ :: rest) hvalue'
    ⟨_, _, rfl, rfl, by simp [behind, stops]⟩
  have hblock := hvalue.startsBlock_eq hvalue' (⟨.mark, ",", gap', commented'⟩ :: rest)
  obtain ⟨t, more, rfl, ht⟩ := hpattern.exists_head hfront
  have hattributes := attributes_none (t := t) (fun hmark => by
    have htext := ht hmark.1
    rw [hmark.2] at htext
    revert htext
    decide) (more ++ ⟨.mark, "=>", gap, commented⟩ :: (value ++ ⟨.mark, ",", gap', commented'⟩ :: rest))
  refine ⟨(), ?_⟩
  rw [arm]
  simp only [List.append_assoc, List.cons_append, List.nil_append] at hread ⊢
  simp [hattributes, hread, isBlockLike, hblock, hexpression]

private theorem arm_closed {ts : List Token} (h : Starts ["\x7d"] ts) : arm item n ts = none := by
  have hpattern : pattern ts = none := alternatives_closed (h.mono (by decide)) _
  obtain ⟨⟨kind, text, gap, commented⟩, after, rfl, rfl, hmem⟩ := h
  obtain rfl : text = "\x7d" := by simpa using hmem
  cases n with
  | zero => rfl
  | succ n =>
    rw [arm]
    simp [attributes_none (t := ⟨.mark, "\x7d", gap, commented⟩), hpattern]

/-- A match. -/
theorem isPrimary_match (h : IsExpression .beforeBlock ss) {arms : List (List Shape)} (hne : arms ≠ [])
    (harms : ∀ us ∈ arms, IsArm us) :
    IsPrimary ms (.word "match" :: (ss ++ .mark "\x7b" :: (arms.flatten ++ [.mark "\x7d"]))) := by
  refine ⟨⟨.word "match", rfl, .inr (.inr (.inl ⟨rfl, .inr rfl⟩))⟩, fun item n p hn ts rest hfit _ => ?_⟩
  simp only [List.length_cons, List.length_append, List.length_nil] at hn
  obtain ⟨n, rfl⟩ := Nat.exists_eq_add_of_le' (show 2 ≤ n by omega)
  obtain ⟨gap, commented, us, rfl, hus⟩ := fit_word.mp hfit
  obtain ⟨front, back, hfront, hback, rfl⟩ := fit_append.mp hus
  obtain ⟨gap', commented', vs, rfl, hvs⟩ := fit_mark.mp hback
  obtain ⟨inner, close, hinner, hclose, rfl⟩ := fit_append.mp hvs
  obtain ⟨gap'', commented'', xs, rfl, hxs⟩ := fit_mark.mp hclose
  obtain rfl := fit_nil.mp hxs
  obtain ⟨_, hread⟩ := h.reads item n (by omega) front
    (⟨.mark, "\x7b", gap', commented'⟩ :: (inner ++ ⟨.mark, "\x7d", gap'', commented''⟩ :: rest)) hfront
    ⟨_, _, rfl, rfl, by simp [behind]⟩
  have hmany : Takes (many (arm item n)) arms.flatten (Starts ["\x7d"]) := by
    refine (takes_many (p := fun _ => True) fun us hus => ?_).mono fun rest hrest => ⟨trivial, arm_closed hrest⟩
    have hlength : us.length ≤ arms.flatten.length := (List.sublist_flatten_of_mem hus).length_le
    refine ⟨?_, takes_arm (harms us hus) (by omega), fun _ _ _ => trivial⟩
    obtain ⟨_, _⟩ := harms us hus
    simp
  obtain ⟨as, has⟩ := hmany inner (⟨.mark, "\x7d", gap'', commented''⟩ :: rest) hinner ⟨_, _, rfl, rfl, by simp⟩
  have hinnerAttribute : repeated innerAttribute (inner ++ ⟨.mark, "\x7d", gap'', commented''⟩ :: rest) =
      ([], inner ++ ⟨.mark, "\x7d", gap'', commented''⟩ :: rest) := by
    refine repeated_none ?_
    obtain ⟨first, others, rfl⟩ := List.exists_cons_of_ne_nil hne
    obtain ⟨hpattern, _⟩ := harms first (by simp)
    obtain ⟨one, two, hone, -, rfl⟩ := fit_append.mp hinner
    obtain ⟨three, four, hthree, -, rfl⟩ := fit_append.mp hone
    obtain ⟨t, more, rfl, ht⟩ := hpattern.exists_head hthree
    have hnot : ¬(t.kind = .mark ∧ t.text = "#") := fun hmark => by
      have htext := ht hmark.1
      rw [hmark.2] at htext
      revert htext
      decide
    simp [innerAttribute, hnot]
  have hmore : repeated (arm item n) (inner ++ ⟨.mark, "\x7d", gap'', commented''⟩ :: rest) =
      (as, ⟨.mark, "\x7d", gap'', commented''⟩ :: rest) := by simpa using has
  refine ⟨(), ?_⟩
  rw [primary]
  simp only [List.cons_append, List.append_assoc, List.nil_append]
  simp [isBlockLike, startsBlock, blockLike, hread, hinnerAttribute, hmore]

end Arms

section Statements

/-- A token with which a statement begins that does not go on with what stands in front of it, or the end of a block. -/
def Fresh (rest : List Token) : Prop :=
  ∃ t more, rest = t :: more ∧ (t.kind = .word ∧ t.text ∉ ["as", "else"] ∨ t.kind = .mark ∧ t.text ∈ ["(", "\x7d"])

/-- A shape with which a statement begins. -/
def StartsStatement (s : Shape) : Prop := s.kind = .word ∧ s.text ∉ ["as", "else"] ∨ s.kind = .mark ∧ s.text = "("

/-- A reader of items reads none at the end of a block. -/
def Closed (item : Reader α) : Prop := ∀ ts, Starts ["\x7d"] ts → item ts = none

/-- Shapes that are read as a statement that others may follow. -/
structure IsStatement (ss : List Shape) : Prop where
  start : ∃ s ∈ ss.head?, StartsStatement s
  reads : ∀ {α : Type} (item : Reader α) (n : Nat), Closed item → 10 * ss.length + 4 ≤ n →
    Takes (statement item n) ss Fresh

/-- Shapes that are read as what stands between the braces of a block. -/
inductive IsBody : List Shape → Prop where
  | nil : IsBody []
  /-- The value of the block. -/
  | last {ss : List Shape} (h : IsPlainExpression ss) : IsBody ss
  | cons {ss us : List Shape} (h : IsStatement ss) (hmore : IsBody us) : IsBody (ss ++ us)

/-- A block around the shapes `ss`. -/
def blockShapes (ss : List Shape) : List Shape := .mark "\x7b" :: (ss ++ [.mark "\x7d"])

theorem fresh_of_fit (h : ∃ s ∈ ss.head?, StartsStatement s) {ts : List Token} (hfit : Fit ts ss) (rest : List Token) :
    Fresh (ts ++ rest) := by
  obtain ⟨s, hs, hstart⟩ := h
  obtain ⟨us, rfl⟩ := List.head?_eq_some_iff.mp hs
  obtain ⟨t, more, ⟨hkind, htext, _⟩, _, rfl⟩ := fit_cons.mp hfit
  refine ⟨t, more ++ rest, rfl, ?_⟩
  rw [hkind, htext]
  exact hstart.imp_right fun hmark => ⟨hmark.1, by simp [hmark.2]⟩

theorem IsPlainExpression.startsStatement (h : IsPlainExpression ss) : ∃ s ∈ ss.head?, StartsStatement s := by
  obtain ⟨s, hs, hplain⟩ := h.plain
  refine ⟨s, hs, hplain.imp_left fun ⟨hkind, hnot⟩ => ⟨hkind, ?_⟩⟩
  simp only [List.mem_cons, not_or] at hnot
  simp [hnot]

theorem isWord_let (h : IsPlainExpression ss) {ts : List Token} (hfit : Fit ts ss) (rest : List Token) :
    isWord "let" (ts ++ rest) = some (false, ts ++ rest) := by
  obtain ⟨s, hs, hplain⟩ := h.plain
  obtain ⟨us, rfl⟩ := List.head?_eq_some_iff.mp hs
  obtain ⟨t, more, ⟨hkind, htext, _⟩, _, rfl⟩ := fit_cons.mp hfit
  rw [← hkind, ← htext] at hplain
  rcases hplain with ⟨hword, hnot⟩ | ⟨hmark, _⟩
  · have hlet : t.text ≠ "let" := fun heq => hnot (by simp [heq])
    simp [hlet]
  · simp [hmark]

/-- An expression with a semicolon behind it. -/
theorem isStatement_expression (h : IsPlainExpression ss) : IsStatement (ss ++ [.mark ";"]) := by
  obtain ⟨s, hs, hstart⟩ := h.startsStatement
  obtain ⟨us, hss⟩ := List.head?_eq_some_iff.mp hs
  refine ⟨⟨s, by simp [hss], hstart⟩, fun item n _ hn ts rest hfit _ => ?_⟩
  rw [List.length_append] at hn
  obtain ⟨n, rfl⟩ := Nat.exists_eq_succ_of_ne_zero (n := n) (by omega)
  obtain ⟨front, back, hfront, hback, rfl⟩ := fit_append.mp hfit
  obtain ⟨gap, commented, vs, rfl, hvs⟩ := fit_mark.mp hback
  obtain rfl := fit_nil.mp hvs
  obtain ⟨_, hread⟩ := h.reads item n (by omega) front (⟨.mark, ";", gap, commented⟩ :: rest) hfront
    ⟨_, _, rfl, rfl, by simp [behind, stops]⟩
  have hblock := h.startsBlock_eq hfront (⟨.mark, ";", gap, commented⟩ :: rest)
  have hlet := isWord_let h hfront (⟨.mark, ";", gap, commented⟩ :: rest)
  refine ⟨(), ?_⟩
  rw [statement]
  simp [hlet, isBlockLike, hblock, hread]

/-- The value of a block. -/
theorem takes_value (h : IsPlainExpression ss) (hn : 10 * ss.length + 4 ≤ n) :
    Takes (statement item n) ss (Starts ["\x7d"]) := by
  intro ts rest hfit hrest
  obtain ⟨n, rfl⟩ := Nat.exists_eq_succ_of_ne_zero (n := n) (by omega)
  obtain ⟨_, hread⟩ := h.reads item n (by omega) ts rest hfit (hrest.mono (by decide))
  have hblock := h.startsBlock_eq hfit rest
  have hlet := isWord_let h hfit rest
  obtain ⟨t, after, rfl, hkind, hmem⟩ := hrest
  obtain htext : t.text = "\x7d" := by simpa using hmem
  refine ⟨(), ?_⟩
  rw [statement]
  simp [hlet, isBlockLike, hblock, hread, hkind, htext, ahead]

private theorem statement_closed (hitem : Closed item) {ts : List Token} (h : Starts ["\x7d"] ts) : statement item n ts = none := by
  have hnone (m : Nat) : expression item m .free ts = none := expression_closed (by decide) h
  have hitem := hitem ts h
  obtain ⟨⟨kind, text, gap, commented⟩, after, rfl, rfl, hmem⟩ := h
  obtain rfl : text = "\x7d" := by simpa using hmem
  cases n with
  | zero => rfl
  | succ n =>
    rw [statement]
    simp [isBlockLike, startsBlock, hnone, hitem]

private theorem takes_body (hitem : Closed item) (h : IsBody ss) (hn : 10 * ss.length + 4 ≤ n) :
    Takes (many (statement item n)) ss (Starts ["\x7d"]) := by
  have hends {rest : List Token} (hrest : Starts ["\x7d"] rest) :=
    repeated_none (statement_closed (n := n) hitem hrest)
  induction h with
  | nil =>
    intro ts rest hfit hrest
    rw [fit_nil.mp hfit]
    exact ⟨[], by rw [List.nil_append, run_many, hends hrest]⟩
  | @last ss h =>
    intro ts rest hfit hrest
    obtain ⟨a, ha⟩ := takes_value h hn ts rest hfit hrest
    have hless : rest.length < (ts ++ rest).length := by
      obtain ⟨s, hs, _⟩ := h.start
      obtain ⟨us, rfl⟩ := List.head?_eq_some_iff.mp hs
      have hlength := hfit.length_eq
      simp only [List.length_append, List.length_cons] at hlength ⊢
      omega
    exact ⟨[a], by rw [run_many, repeated_some ha hless, hends hrest]⟩
  | @cons ss us h hmore ih =>
    intro ts rest hfit hrest
    rw [List.length_append] at hn
    obtain ⟨front, back, hfront, hback, rfl⟩ := fit_append.mp hfit
    have hnext : Fresh (back ++ rest) := by
      cases hmore with
      | nil =>
        obtain ⟨t, after, rfl, hkind, hmem⟩ := hrest
        rw [fit_nil.mp hback]
        exact ⟨t, after, rfl, .inr ⟨hkind, List.mem_cons_of_mem _ hmem⟩⟩
      | last h => exact fresh_of_fit h.startsStatement hback rest
      | cons h _ =>
        obtain ⟨s, hs, hstart⟩ := h.start
        obtain ⟨vs, rfl⟩ := List.head?_eq_some_iff.mp hs
        exact fresh_of_fit ⟨s, rfl, hstart⟩ hback rest
    obtain ⟨as, has⟩ := ih (by omega) back rest hback hrest
    obtain ⟨a, ha⟩ := h.reads item n hitem (by omega) front (back ++ rest) hfront hnext
    have hless : (back ++ rest).length < (front ++ (back ++ rest)).length := by
      obtain ⟨s, hs, _⟩ := h.start
      obtain ⟨vs, rfl⟩ := List.head?_eq_some_iff.mp hs
      have hlength := hfront.length_eq
      simp only [List.length_append, List.length_cons] at hlength ⊢
      omega
    have hmany : repeated (statement item n) (back ++ rest) = (as, rest) := by simpa using has
    exact ⟨a :: as, by rw [run_many, List.append_assoc, repeated_some ha hless, hmany]⟩

/-- A block is read with what stands in it. -/
theorem takes_block (hitem : Closed item) (h : IsBody ss) (hn : 10 * (blockShapes ss).length ≤ n) :
    Takes (block item n) (blockShapes ss) fun _ => True := by
  intro ts rest hfit _
  rw [blockShapes] at hn hfit
  simp only [List.length_cons, List.length_append, List.length_nil] at hn
  obtain ⟨n, rfl⟩ := Nat.exists_eq_succ_of_ne_zero (n := n) (by omega)
  obtain ⟨gap, commented, us, rfl, hus⟩ := fit_mark.mp hfit
  obtain ⟨inner, close, hinner, hclose, rfl⟩ := fit_append.mp hus
  obtain ⟨gap', commented', vs, rfl, hvs⟩ := fit_mark.mp hclose
  obtain rfl := fit_nil.mp hvs
  obtain ⟨as, has⟩ := takes_body hitem h (n := n) (by omega) inner (⟨.mark, "\x7d", gap', commented'⟩ :: rest) hinner
    ⟨_, _, rfl, rfl, by simp⟩
  refine ⟨(), ?_⟩
  rw [block]
  simp only [List.cons_append, List.append_assoc, List.nil_append]
  simp [has, -run_many]

end Statements

section Control

/-- Shapes that are read as something that ends with a block. -/
structure IsBlockLike (ss : List Shape) : Prop where
  start : ∃ s ∈ ss.head?, s.kind = .word ∧ s.text ∈ ["if", "for"]
  reads : ∀ {α : Type} (item : Reader α) (n : Nat), Closed item → 10 * ss.length ≤ n →
    Takes (blockLike item n) ss Fresh

theorem Fresh.goesOn {rest : List Token} (h : Fresh rest) : goesOn rest = some (false, rest) := by
  obtain ⟨t, more, rfl, ⟨hkind, htext⟩ | ⟨hkind, htext⟩⟩ := h
  · simp only [List.mem_cons, List.not_mem_nil, or_false, not_or] at htext
    simp [Reader.goesOn, hkind, htext]
  · simp only [List.mem_cons, List.not_mem_nil, or_false] at htext
    rcases htext with htext | htext <;> simp [Reader.goesOn, hkind, htext]

private theorem Fresh.optionalKeyword_else {rest : List Token} (h : Fresh rest) :
    optionalKeyword "else" rest = some (false, rest) := by
  obtain ⟨t, more, rfl, ⟨hkind, htext⟩ | ⟨hkind, htext⟩⟩ := h
  · simp only [List.mem_cons, List.not_mem_nil, or_false, not_or] at htext
    simp [htext]
  · simp [hkind]

theorem IsBlockLike.isStatement (h : IsBlockLike ss) : IsStatement ss := by
  obtain ⟨s, hs, hkind, hmem⟩ := h.start
  obtain ⟨us, rfl⟩ := List.head?_eq_some_iff.mp hs
  have hstarts : ∀ w ∈ ["if", "for"], w ∉ ["as", "else"] ∧ w ∈ ["if", "match", "while", "loop", "for"] ∧ w ≠ "let" := by
    decide
  obtain ⟨hword, hblock, hlet⟩ := hstarts _ hmem
  refine ⟨⟨s, rfl, .inl ⟨hkind, hword⟩⟩, fun item n hitem hn ts rest hfit hrest => ?_⟩
  obtain ⟨n, rfl⟩ := Nat.exists_eq_succ_of_ne_zero (n := n) (by omega)
  obtain ⟨_, hread⟩ := h.reads item n hitem (by omega) ts rest hfit hrest
  obtain ⟨t, more, ⟨hkind', htext, _⟩, _, rfl⟩ := fit_cons.mp hfit
  rw [← hkind'] at hkind
  rw [← htext] at hblock hlet
  have hstarts : startsBlock (t :: (more ++ rest)) = true := by
    have hcontains : ["if", "match", "while", "loop", "for"].contains t.text = true := by simpa using hblock
    simp only [startsBlock, hkind, hcontains, if_true]
  refine ⟨(), ?_⟩
  rw [statement]
  rw [List.cons_append] at hread ⊢
  simp [hlet, isBlockLike, hstarts, hread, hrest.goesOn]

theorem isBlockLike_if (h : IsExpression .beforeBlock ss) (hbody : IsBody us) :
    IsBlockLike (.word "if" :: (ss ++ blockShapes us)) := by
  refine ⟨⟨_, rfl, rfl, by decide⟩, fun item n hitem hn ts rest hfit hrest => ?_⟩
  rw [List.length_cons, List.length_append] at hn
  obtain ⟨n, rfl⟩ := Nat.exists_eq_succ_of_ne_zero (n := n) (by omega)
  obtain ⟨gap, commented, vs, rfl, hvs⟩ := fit_word.mp hfit
  obtain ⟨front, back, hfront, hback, rfl⟩ := fit_append.mp hvs
  obtain ⟨_, hblock⟩ := takes_block hitem hbody (n := n) (by omega) back rest hback trivial
  have hopen : Starts (behind .beforeBlock) (back ++ rest) :=
    starts_of_fit (s := .mark "\x7b") rfl rfl (by simp [behind, Shape.mark]) hback rest
  have hlength : 0 < (blockShapes us).length := by simp [blockShapes]
  obtain ⟨_, hread⟩ := h.reads item n (by omega) front (back ++ rest) hfront hopen
  refine ⟨(), ?_⟩
  rw [blockLike, List.cons_append, List.append_assoc]
  simp [hread, hblock, hrest.optionalKeyword_else]

theorem isBlockLike_for {pattern : List Shape} (hpattern : IsPattern pattern) (h : IsExpression .beforeBlock ss)
    (hbody : IsBody us) : IsBlockLike (.word "for" :: (pattern ++ .word "in" :: (ss ++ blockShapes us))) := by
  refine ⟨⟨_, rfl, rfl, by decide⟩, fun item n hitem hn ts rest hfit hrest => ?_⟩
  rw [List.length_cons, List.length_append, List.length_cons, List.length_append] at hn
  obtain ⟨n, rfl⟩ := Nat.exists_eq_succ_of_ne_zero (n := n) (by omega)
  obtain ⟨gap, commented, vs, rfl, hvs⟩ := fit_word.mp hfit
  obtain ⟨names, tail, hnames, htail, rfl⟩ := fit_append.mp hvs
  obtain ⟨gap', commented', xs, rfl, hxs⟩ := fit_word.mp htail
  obtain ⟨front, back, hfront, hback, rfl⟩ := fit_append.mp hxs
  obtain ⟨_, hblock⟩ := takes_block hitem hbody (n := n) (by omega) back rest hback trivial
  have hopen : Starts (behind .beforeBlock) (back ++ rest) :=
    starts_of_fit (s := .mark "\x7b") rfl rfl (by simp [behind, Shape.mark]) hback rest
  have hlength : 0 < (blockShapes us).length := by simp [blockShapes]
  obtain ⟨_, hread⟩ := h.reads item n (by omega) front (back ++ rest) hfront hopen
  obtain ⟨_, hnamed⟩ := hpattern.takes_pattern names (⟨.word, "in", gap', commented'⟩ :: (front ++ (back ++ rest))) hnames
    (by
      intro t ht hkind
      obtain rfl : _ = t := by simpa using ht
      cases hkind)
  refine ⟨(), ?_⟩
  rw [blockLike, List.cons_append, List.append_assoc, List.cons_append, List.append_assoc]
  simp [hnamed, hread, hblock]

/-- The type of a name that is bound, or nothing. -/
inductive IsAnnotation : List Shape → Prop where
  | nil : IsAnnotation []
  | type {ss : List Shape} (h : IsType ss) : IsAnnotation (.mark ":" :: ss)

/-- A name that is bound to a value. -/
theorem isStatement_let {pattern typing : List Shape} (hpattern : IsPattern pattern)
    (htyping : IsAnnotation typing) (h : IsExpression .free ss) :
    IsStatement (.word "let" :: (pattern ++ (typing ++ .mark "=" :: (ss ++ [.mark ";"])))) := by
  refine ⟨⟨_, rfl, .inl ⟨rfl, by decide⟩⟩, fun item n _ hn ts rest hfit _ => ?_⟩
  simp only [List.length_cons, List.length_append] at hn
  obtain ⟨n, rfl⟩ := Nat.exists_eq_add_of_le' (show 2 ≤ n by omega)
  obtain ⟨gap, commented, vs, rfl, hvs⟩ := fit_word.mp hfit
  obtain ⟨names, tail, hnames, htail, rfl⟩ := fit_append.mp hvs
  obtain ⟨types, value, htypes, hvalue, rfl⟩ := fit_append.mp htail
  obtain ⟨gap', commented', xs, rfl, hxs⟩ := fit_mark.mp hvalue
  obtain ⟨front, back, hfront, hback, rfl⟩ := fit_append.mp hxs
  obtain ⟨gap'', commented'', ys, rfl, hys⟩ := fit_mark.mp hback
  obtain rfl := fit_nil.mp hys
  obtain ⟨_, hread⟩ := h.reads item n (by omega) front (⟨.mark, ";", gap'', commented''⟩ :: rest) hfront
    ⟨_, _, rfl, rfl, by simp [behind, stops]⟩
  have htype : optionalType (types ++ ⟨.mark, "=", gap', commented'⟩ :: (front ++ ⟨.mark, ";", gap'', commented''⟩ :: rest)) =
      some ((), ⟨.mark, "=", gap', commented'⟩ :: (front ++ ⟨.mark, ";", gap'', commented''⟩ :: rest)) := by
    cases htyping with
    | nil =>
      rw [fit_nil.mp htypes]
      simp [optionalType]
    | @type us htype =>
      obtain ⟨gap, commented, zs, rfl, hzs⟩ := fit_mark.mp htypes
      obtain ⟨t, ht⟩ := htype.takes_type zs (⟨.mark, "=", gap', commented'⟩ ::
        (front ++ ⟨.mark, ";", gap'', commented''⟩ :: rest)) hzs (ends_mark (by decide))
      simp [optionalType, ht]
  have hstop : Starts [":", "="] (types ++ ⟨.mark, "=", gap', commented'⟩ ::
      (front ++ ⟨.mark, ";", gap'', commented''⟩ :: rest)) := by
    cases htyping with
    | nil =>
      rw [fit_nil.mp htypes]
      exact ⟨_, _, rfl, rfl, by simp⟩
    | type => exact starts_of_fit (s := .mark ":") rfl rfl (by simp [Shape.mark]) htypes _
  obtain ⟨_, hnamed⟩ := hpattern.takes_pattern names _ hnames (hstop.clear (by decide))
  refine ⟨(), ?_⟩
  rw [statement]
  simp only [List.cons_append, List.append_assoc, List.nil_append]
  simp [binding, hnamed, htype, hread]

end Control

end TraitMock.Syntax.Reader
