import TraitMock.Proofs.Syntax.BoundedTypes
import TraitMock.Syntax.Expression

namespace TraitMock.Syntax.Reader

section Words

/-- The words that begin an expression which ends with a block. -/
def blockWords : List String := ["if", "match", "while", "loop", "for", "unsafe", "try", "const", "async", "gen"]

/-- A shape with which an operand begins. -/
def StartsOperand (s : Shape) : Prop :=
  s.kind = .number ∨ s.kind = .string ∨ s.kind = .word ∧ (s.text ∉ reservedWords ∨ s.text = "match") ∨
    s.kind = .mark ∧ s.text = "("

/-- A token with which an operand begins. -/
def BeginsOperand (t : Token) : Prop := StartsOperand ⟨t.kind, t.text, false⟩

variable {t : Token} {rest : List Token} {w gap : String} {commented : Bool}

theorem BeginsOperand.of_fit {ss : List Shape} (h : ∃ s ∈ ss.head?, StartsOperand s) {ts : List Token} (hfit : Fit ts ss) :
    ∃ t more, ts = t :: more ∧ BeginsOperand t := by
  obtain ⟨s, hs, hstart⟩ := h
  obtain ⟨us, rfl⟩ := List.head?_eq_some_iff.mp hs
  obtain ⟨t, more, ⟨hkind, htext, _⟩, _, rfl⟩ := fit_cons.mp hfit
  refine ⟨t, more, rfl, ?_⟩
  rwa [BeginsOperand, StartsOperand, hkind, htext]

theorem BeginsOperand.ne_word (h : BeginsOperand t) (hw : w ∈ reservedWords) (hmatch : w ≠ "match") :
    ¬(t.kind = .word ∧ t.text = w) := by
  rintro ⟨hkind, rfl⟩
  rcases h with hnumber | hstring | ⟨_, hnot | heq⟩ | ⟨hmark, _⟩
  · cases hkind.symm.trans hnumber
  · cases hkind.symm.trans hstring
  · exact hnot hw
  · exact hmatch heq
  · cases hkind.symm.trans hmark

theorem BeginsOperand.ne_mark (h : BeginsOperand t) {m : String} (hm : m ≠ "(") : ¬(t.kind = .mark ∧ t.text = m) := by
  rintro ⟨hkind, rfl⟩
  rcases h with hnumber | hstring | ⟨hword, _⟩ | ⟨_, heq⟩
  · cases hkind.symm.trans hnumber
  · cases hkind.symm.trans hstring
  · cases hkind.symm.trans hword
  · exact hm heq

theorem BeginsOperand.sign_eq_none (h : BeginsOperand t) : sign (t :: rest) = none := by
  simp [sign, h.ne_mark (m := "-") (by decide), h.ne_mark (m := "*") (by decide), h.ne_mark (m := "!") (by decide),
    h.ne_mark (m := "&") (by decide)]

theorem BeginsOperand.isOpen_eq (h : BeginsOperand t) : isOpen (t :: rest) = some (false, t :: rest) := by
  have hbar := h.ne_mark (m := "|") (by decide)
  have hword : ∀ w ∈ ["static", "async", "move", "continue", "return", "yield", "break"],
      ¬(t.kind = .word ∧ t.text = w) := by
    intro w hw
    have hreserved : ∀ w ∈ ["static", "async", "move", "continue", "return", "yield", "break"],
        w ∈ reservedWords ∧ w ≠ "match" := by decide
    exact h.ne_word (hreserved w hw).1 (hreserved w hw).2
  simp only [List.forall_mem_cons, List.not_mem_nil, false_imp_iff, implies_true, and_true] at hword
  obtain ⟨hstatic, hasync, hmove, hcontinue, hreturn, hyield, hbreak⟩ := hword
  by_cases hkind : t.kind = .mark
  · have htext : t.text ≠ "|" := fun heq => hbar ⟨hkind, heq⟩
    simp [isOpen, hkind, htext]
  · by_cases hkind' : t.kind = .word
    · simp only [hkind', true_and] at hstatic hasync hmove hcontinue hreturn hyield hbreak
      simp [isOpen, hkind', hstatic, hasync, hmove, hcontinue, hreturn, hyield, hbreak]
    · simp [isOpen, hkind, hkind']

theorem startsBlock_word (hw : w ∉ blockWords) : startsBlock (⟨.word, w, gap, commented⟩ :: rest) = false := by
  simp only [blockWords, List.mem_cons, List.not_mem_nil, or_false, not_or] at hw
  simp [startsBlock, hw]

/-- A word with which a path begins does not begin a block in front of a mark other than a brace. -/
theorem startsBlock_path {ms : List String} (hw : w ∉ reservedWords) (hrest : Starts ms rest)
    (hms : ∀ m ∈ ms, m ≠ "\x7b" ∧ m ≠ "move") : startsBlock (⟨.word, w, gap, commented⟩ :: rest) = false := by
  obtain ⟨t, after, rfl, -, hmem⟩ := hrest
  obtain ⟨hbrace, hmove⟩ := hms _ hmem
  simp only [reservedWords, List.mem_cons, List.not_mem_nil, or_false, not_or] at hw
  simp [startsBlock, hw, hbrace, hmove]

end Words

section Operators

/-- The marks behind an expression in front of whatever is no block. -/
def stops : List String := [",", ";", ")", "]", "\x7d"]

/-- The marks behind an expression. -/
def behind : Place → List String
  | .beforeBlock => ["\x7b"]
  | _ => stops

private theorem joined_eq_none {m : String} {more : List String} {rest : List Token} (h : Clear [m] rest) :
    joined true (m :: more) rest = none := by
  cases rest with
  | nil => rfl
  | cons t rest =>
    have hmark := h.isMark (m := m) (by simp)
    have hnot : ¬(t.kind = .mark ∧ t.text = m) := by simpa using hmark
    simp [joined, hnot]

/-- No operator comes next if none begins with the mark that does. -/
theorem operator_eq_none {ms : List String} {rest : List Token} (h : Starts ms rest)
    (hms : ∀ op ∈ operators, ∀ m ∈ op.head?, m ∉ ms) : operator rest = none := by
  have hone : ∀ op ∈ operators, op ≠ [] ∧ joined true op rest = none := by
    intro op hop
    cases op with
    | nil => exact absurd hop (by decide)
    | cons m more => exact ⟨by simp, joined_eq_none (h.clear fun n hn => by
        have hm := hms _ hop m rfl
        simp only [List.mem_cons, List.not_mem_nil, or_false]
        rintro rfl
        exact hm hn)⟩
  unfold operator
  generalize operators = ops at hone
  induction ops with
  | nil => rfl
  | cons op ops ih =>
    obtain ⟨hop, hops⟩ := List.forall_mem_cons.mp hone
    rw [List.foldr_cons, run_orElse, hop.2]
    exact ih hops

/-- The sign of inequality, written without a blank. -/
def unequal : List Shape := [.mark "!", ⟨.mark, "=", true⟩]

/-- The operators that a mock is written with. -/
inductive IsOperator : List Shape → Prop where
  | plus : IsOperator [.mark "+"]
  | unequal : IsOperator unequal

/-- The marks with which these operators begin. -/
def operatorMarks : List String := ["+", "!"]

private theorem takes_operator {op : List Shape} (h : IsOperator op) :
    Takes operator op fun rest => ∃ t more, rest = t :: more ∧ BeginsOperand t := by
  rintro ts rest hfit ⟨t, more, rfl, ht⟩
  cases h with
  | plus =>
    obtain ⟨gap, commented, us, rfl, hus⟩ := fit_mark.mp hfit
    obtain rfl := fit_nil.mp hus
    have hequal := ht.ne_mark (m := "=") (by decide)
    exact ⟨(), by simp [operator, operators, joined, hequal]⟩
  | unequal =>
    obtain ⟨gap, commented, us, rfl, hus⟩ := fit_mark.mp hfit
    obtain ⟨t, vs, ⟨hkind, htext, hglued⟩, hvs, rfl⟩ := fit_cons.mp hus
    obtain rfl := fit_nil.mp hvs
    exact ⟨(), by simp [operator, operators, joined, hkind, htext, hglued]⟩

end Operators

section Terms

/-- A shape with which an expression begins. -/
def StartsExpression (s : Shape) : Prop := StartsOperand s ∨ s.kind = .mark ∧ s.text ∈ ["&", "*", "|"]

/-- Shapes that are read as an expression at a place. -/
structure IsExpression (p : Place) (ss : List Shape) : Prop where
  start : ∃ s ∈ ss.head?, StartsExpression s
  reads : ∀ {α : Type} (item : Reader α) (n : Nat), 10 * ss.length + 3 ≤ n →
    Takes (expression item n p) ss (Starts (behind p))

/-- Shapes that are read as an operand up to the marks `ms`, with what is applied to it. -/
structure IsTerm (ms : List String) (ss : List Shape) : Prop where
  start : ∃ s ∈ ss.head?, StartsExpression s
  reads : ∀ {α : Type} (item : Reader α) (n : Nat) (p : Place), 10 * ss.length + 2 ≤ n →
    Takes (operandOf item n p) ss (Starts ms)

/-- Shapes that are read as an operand by itself, up to the marks `ms`. -/
structure IsPrimary (ms : List String) (ss : List Shape) : Prop where
  start : ∃ s ∈ ss.head?, StartsOperand s
  reads : ∀ {α : Type} (item : Reader α) (n : Nat) (p : Place), 10 * ss.length + 1 ≤ n →
    Takes (primary item n p) ss (Starts ms)

/-- Shapes that are read as something that is applied to an operand. -/
structure IsApplied (ss : List Shape) : Prop where
  start : ∃ s ∈ ss.head?, s.kind = .mark ∧ s.text ∈ [".", "("]
  reads : ∀ {α : Type} (item : Reader α) (n : Nat), 10 * ss.length ≤ n → Takes (applied item n) ss (Clear ["::"])

variable {α : Type} {item : Reader α} {n : Nat} {p : Place} {ms ns : List String} {ss us : List Shape}

theorem starts_of_fit {s : Shape} {ts : List Token} (hs : s ∈ ss.head?) (hkind : s.kind = .mark) (hmem : s.text ∈ ms)
    (hfit : Fit ts ss) (rest : List Token) : Starts ms (ts ++ rest) := by
  obtain ⟨us, rfl⟩ := List.head?_eq_some_iff.mp hs
  obtain ⟨t, more, ⟨hkind', htext, _⟩, _, rfl⟩ := fit_cons.mp hfit
  exact ⟨t, more ++ rest, rfl, hkind'.trans hkind, htext ▸ hmem⟩

theorem applied_eq_none {rest : List Token} (h : Clear ["?", ".", "(", "["] rest) : applied item n rest = none := by
  cases n with
  | zero => rfl
  | succ n =>
    rw [applied]
    simp [h.mark (m := "?") (by simp), h.mark (m := ".") (by simp), h.mark (m := "(") (by simp),
      h.mark (m := "[") (by simp)]

/-- What is applied to an operand, one thing after the other. -/
theorem takes_applied {parts : List (List Shape)} (hparts : ∀ ss ∈ parts, IsApplied ss)
    (hn : 10 * parts.flatten.length ≤ n) (hms : ∀ m ∈ ms, m ∉ ["?", ".", "(", "[", "::"]) :
    Takes (many (applied item n)) parts.flatten (Starts ms) := by
  refine (takes_many (p := Clear ["::"]) fun ss hss => ?_).mono fun rest hrest =>
    ⟨hrest.clear fun m hm => ?_, applied_eq_none (hrest.clear fun m hm => ?_)⟩
  · have hpart := hparts ss hss
    have hlength : ss.length ≤ parts.flatten.length := (List.sublist_flatten_of_mem hss).length_le
    refine ⟨?_, hpart.reads item n (by omega), fun ts rest hfit => ?_⟩
    · rintro rfl
      obtain ⟨s, hs, _⟩ := hpart.start
      cases hs
    · obtain ⟨s, hs, hkind, hmem⟩ := hpart.start
      exact (starts_of_fit hs hkind hmem hfit rest).clear (by decide)
  · have hnot := hms m hm
    simp only [List.mem_cons, List.not_mem_nil, or_false, not_or] at hnot ⊢
    exact hnot.2.2.2.2
  · have hnot := hms m hm
    simp only [List.mem_cons, List.not_mem_nil, or_false, not_or] at hnot ⊢
    exact ⟨hnot.1, hnot.2.1, hnot.2.2.1, hnot.2.2.2.1⟩

/-- An operand behind which things are applied. -/
theorem IsPrimary.isTerm (h : IsPrimary ms ss) {parts : List (List Shape)} (hparts : ∀ us ∈ parts, IsApplied us)
    (hopen : parts ≠ [] → "." ∈ ms ∧ "(" ∈ ms) (hns : parts = [] → ∀ m ∈ ns, m ∈ ms)
    (hend : ∀ m ∈ ns, m ∉ ["?", ".", "(", "[", "::"]) : IsTerm ns (ss ++ parts.flatten) := by
  obtain ⟨s, hs, hstart⟩ := h.start
  obtain ⟨us, hss⟩ := List.head?_eq_some_iff.mp hs
  refine ⟨⟨s, by simp [hss], .inl hstart⟩, fun item n p hn ts rest hfit hrest => ?_⟩
  obtain ⟨n, rfl⟩ := Nat.exists_eq_succ_of_ne_zero (n := n) (by omega)
  rw [List.length_append] at hn
  obtain ⟨front, back, hfront, hback, rfl⟩ := fit_append.mp hfit
  have hnext : Starts ms (back ++ rest) := by
    cases parts with
    | nil =>
      rw [fit_nil.mp hback]
      exact hrest.mono (hns rfl)
    | cons part parts =>
      obtain ⟨one, others, hone, -, rfl⟩ := fit_append.mp hback
      obtain ⟨s, hs, hkind, hmem⟩ := (hparts part (by simp)).start
      rw [List.append_assoc]
      refine starts_of_fit hs hkind ?_ hone _
      simp only [List.mem_cons, List.not_mem_nil, or_false] at hmem
      rcases hmem with heq | heq <;> simp [heq, hopen]
  obtain ⟨a, ha⟩ := h.reads item n p (by omega) front (back ++ rest) hfront hnext
  have happlied : Takes (many (applied item n)) parts.flatten (Starts ns) := takes_applied hparts (by omega) hend
  obtain ⟨as, has⟩ := happlied back rest hback hrest
  obtain ⟨t, more, rfl, ht⟩ := BeginsOperand.of_fit h.start hfront
  have hsign : repeated sign (t :: (more ++ (back ++ rest))) = ([], t :: (more ++ (back ++ rest))) :=
    repeated_none ht.sign_eq_none
  have hlet := ht.ne_word (w := "let") (by decide) (by decide)
  have hopen : isOpen (t :: (more ++ (back ++ rest))) = some (false, t :: (more ++ (back ++ rest))) := ht.isOpen_eq
  have hmany : repeated (applied item n) (back ++ rest) = (as, rest) := by simpa using has
  refine ⟨(), ?_⟩
  rw [operandOf, List.append_assoc]
  simp only [List.cons_append] at ha ⊢
  simp [hsign, hlet, hopen, ha, hmany]

theorem operandsAfter_end (hend : ∀ m ∈ ms, m ∈ "\x7b" :: stops) {rest : List Token} (h : Starts ms rest) :
    operandsAfter item (n + 1) p rest = some ((), rest) := by
  have hall : ∀ op ∈ operators, ∀ m ∈ op.head?, m ∉ "\x7b" :: stops := by decide
  have hoperator : operator rest = none := operator_eq_none h fun op hop m hm hmem => hall op hop m hm (hend m hmem)
  have hdots : Clear ["..", "..."] rest := (h.mono hend).clear (by decide)
  have has : keyword "as" rest = none := by
    obtain ⟨t, after, rfl, hkind, -⟩ := h
    simp [hkind]
  have hmore : repeated ((do operator; operandOf item n p) <|> (do keyword "as"; plainType)) rest = ([], rest) :=
    repeated_none (by simp [hoperator, has])
  rw [operandsAfter]
  simp [hmore, rangeDots, hdots.mark (m := "..") (by simp), hdots.mark (m := "...") (by simp)]

theorem behind_mem (p : Place) : ∀ m ∈ behind p, m ∈ "\x7b" :: stops := by
  cases p <;> decide

theorem rangeDots_eq_none {ts : List Token} (h : ∃ s ∈ ss.head?, StartsExpression s) (hfit : Fit ts ss)
    (rest : List Token) : rangeDots (ts ++ rest) = none := by
  obtain ⟨s, hs, hstart⟩ := h
  obtain ⟨us, rfl⟩ := List.head?_eq_some_iff.mp hs
  obtain ⟨t, more, ⟨hkind, htext, _⟩, _, rfl⟩ := fit_cons.mp hfit
  have hnot : ∀ m ∈ ["..", "..."], ¬(t.kind = .mark ∧ t.text = m) := by
    rintro m hm ⟨hmark, rfl⟩
    rw [hkind] at hmark
    rcases hstart with (hnumber | hstring | ⟨hword, _⟩ | ⟨_, heq⟩) | ⟨_, hmem⟩
    · cases hmark.symm.trans hnumber
    · cases hmark.symm.trans hstring
    · cases hmark.symm.trans hword
    · rw [htext, heq] at hm
      revert hm
      decide
    · rw [htext] at hm
      have hdisjoint : ∀ m ∈ ["&", "*", "|"], m ∉ ["..", "..."] := by decide
      exact hdisjoint _ hmem hm
  have htwo := hnot ".." (by simp)
  have hthree := hnot "..." (by simp)
  simp [rangeDots, htwo, hthree]

/-- A term by itself is an expression. -/
theorem IsTerm.isExpression (h : IsTerm ms ss) (hp : ∀ m ∈ behind p, m ∈ ms) : IsExpression p ss := by
  refine ⟨h.start, fun item n hn ts rest hfit hrest => ?_⟩
  obtain ⟨n, rfl⟩ := Nat.exists_eq_add_of_le' (show 2 ≤ n by omega)
  obtain ⟨a, ha⟩ := h.reads item (n + 1) p (by omega) ts rest hfit (hrest.mono hp)
  have hafter : operandsAfter item (n + 1) p rest = some ((), rest) := operandsAfter_end (behind_mem p) hrest
  refine ⟨(), ?_⟩
  rw [expression]
  simp [rangeDots_eq_none h.start hfit rest, ha, hafter]

/-- Two terms with an operator between them. -/
theorem isExpression_binary {op : List Shape} (hleft : IsTerm operatorMarks ss) (hop : IsOperator op)
    (hright : IsTerm ms us) (hstart : ∃ s ∈ us.head?, StartsOperand s) (hp : ∀ m ∈ behind p, m ∈ ms) :
    IsExpression p (ss ++ (op ++ us)) := by
  have hfirst : ∃ s ∈ (ss ++ (op ++ us)).head?, StartsExpression s := by
    obtain ⟨s, hs, hstart⟩ := hleft.start
    obtain ⟨vs, rfl⟩ := List.head?_eq_some_iff.mp hs
    exact ⟨s, rfl, hstart⟩
  refine ⟨hfirst, fun item n hn ts rest hfit hrest => ?_⟩
  obtain ⟨n, rfl⟩ := Nat.exists_eq_add_of_le' (show 2 ≤ n by omega)
  have hdots := rangeDots_eq_none hfirst hfit rest
  obtain ⟨left, back, hleft', hback, rfl⟩ := fit_append.mp hfit
  obtain ⟨mid, right, hmid, hright', rfl⟩ := fit_append.mp hback
  have hpositive : 0 < op.length := by cases hop <;> simp [unequal]
  rw [List.length_append, List.length_append] at hn
  have hnext : Starts operatorMarks (mid ++ (right ++ rest)) := by
    cases hop with
    | plus => exact starts_of_fit (s := .mark "+") rfl rfl (by decide) hmid _
    | unequal => exact starts_of_fit (s := .mark "!") rfl rfl (by decide) hmid _
  obtain ⟨t, more, hmore, ht⟩ := BeginsOperand.of_fit hstart hright'
  obtain ⟨_, ha⟩ := hleft.reads item (n + 1) p (by omega) left (mid ++ (right ++ rest)) hleft' hnext
  obtain ⟨_, hb⟩ := takes_operator hop mid (right ++ rest) hmid ⟨t, more ++ rest, by rw [hmore]; rfl, ht⟩
  obtain ⟨_, hc⟩ := hright.reads item n p (by omega) right rest hright' (hrest.mono hp)
  -- the operator and its right operand are read, and nothing behind them
  have hone : ((do operator; operandOf item n p) <|> (do keyword "as"; plainType)) (mid ++ (right ++ rest)) =
      some ((), rest) := by simp [hb, hc]
  have hend : operandsAfter item (n + 1) p rest = some ((), rest) := operandsAfter_end (behind_mem p) hrest
  have hless : rest.length < (mid ++ (right ++ rest)).length := by
    have hlength := hmid.length_eq
    simp only [List.length_append]
    omega
  have hafter : operandsAfter item (n + 1) p (mid ++ (right ++ rest)) = some ((), rest) := by
    rw [operandsAfter] at hend ⊢
    simp only [run_bind, run_many, Option.bind_some, repeated_some hone hless] at hend ⊢
    exact hend
  refine ⟨(), ?_⟩
  rw [expression, List.append_assoc, List.append_assoc]
  rw [List.append_assoc, List.append_assoc] at hdots
  simp [hdots, ha, hafter]

end Terms

section Primaries

variable {α : Type} {item : Reader α} {n : Nat} {p : Place} {ms : List String} {ss : List Shape}

theorem takes_expressionPath {first : String} (hfirst : first ∉ reservedWords) (more : List String) :
    Takes expressionPath (pathShapes (first :: more)) (Clear ["::"]) := by
  intro ts rest hfit hrest
  obtain ⟨gap, commented, us, rfl, hus⟩ := fit_word.mp hfit
  have hsegments : Takes (many do
      mark "::"
      genericArguments <|> (do
        let _ ← name)) (behindFirst more) (Clear ["::"]) := by
    rw [behindFirst, List.flatMap_def]
    refine (takes_many (p := fun _ => True) fun ss hss => ?_).mono fun rest hrest =>
      ⟨trivial, by simp [hrest.mark (m := "::") (by simp)]⟩
    obtain ⟨s, -, rfl⟩ := List.mem_map.mp hss
    refine ⟨by simp, fun ts rest hfit _ => ?_, fun _ _ _ => trivial⟩
    obtain ⟨gap, commented, vs, rfl, hvs⟩ := fit_mark.mp hfit
    obtain ⟨gap', commented', xs, rfl, hxs⟩ := fit_word.mp hvs
    obtain rfl := fit_nil.mp hxs
    exact ⟨(), by simp [genericArguments]⟩
  obtain ⟨as, has⟩ := hsegments us rest hus hrest
  refine ⟨(), ?_⟩
  simp [expressionPath, hfirst, has, -bind_pure_comp, -run_many]

/-- Behind a path with which an operand begins, it is read on as a path. -/
theorem primary_path {first gap : String} {commented : Bool} {rest : List Token} (hblock : startsBlock (⟨.word, first, gap, commented⟩ :: rest) = false) :
    primary item (n + 1) p (⟨.word, first, gap, commented⟩ :: rest) =
      pathOperand item n p (⟨.word, first, gap, commented⟩ :: rest) := by
  rw [primary]
  simp only [run_bind, isBlockLike, hblock, Option.bind_some, run_ite, Bool.false_eq_true, if_false, run_peek,
    List.head?_cons]

/-- The mark behind the first name of a path. -/
theorem starts_path {more : List String} {ts rest : List Token} (hfit : Fit ts (behindFirst more)) (hrest : Starts ms rest) :
    Starts ("::" :: ms) (ts ++ rest) := by
  cases more with
  | nil =>
    rw [fit_nil.mp hfit]
    exact hrest.mono fun m => List.mem_cons_of_mem _
  | cons s more => exact starts_of_fit (s := .mark "::") rfl rfl List.mem_cons_self hfit rest

/-- A path that stands for a value. -/
theorem isPrimary_path {first : String} (hfirst : first ∉ reservedWords) (more : List String) :
    IsPrimary ("." :: "(" :: stops) (pathShapes (first :: more)) := by
  refine ⟨⟨.word first, rfl, .inr (.inr (.inl ⟨rfl, .inl hfirst⟩))⟩, fun item n p hn ts rest hfit hrest => ?_⟩
  have hpositive : 0 < (pathShapes (first :: more)).length := by simp [pathShapes]
  obtain ⟨n, rfl⟩ := Nat.exists_eq_add_of_le' (show 2 ≤ n by omega)
  obtain ⟨a, ha⟩ := takes_expressionPath hfirst more ts rest hfit (hrest.clear (by decide))
  obtain ⟨gap, commented, us, rfl, hus⟩ := fit_word.mp hfit
  have hblock : startsBlock (⟨.word, first, gap, commented⟩ :: (us ++ rest)) = false :=
    startsBlock_path hfirst (starts_path hus hrest) (by decide)
  have hcall : Clear ["!", "\x7b"] rest := hrest.clear (by decide)
  refine ⟨(), ?_⟩
  rw [List.cons_append] at ha ⊢
  rw [primary_path hblock, pathOperand]
  simp [ha, hcall.mark (m := "!") (by simp), hcall.isMark (m := "\x7b") (by simp)]

/-- A macro that is called by its path, with balanced tokens. -/
theorem isPrimary_invocation {first : String} (hfirst : first ∉ reservedWords) (more : List String) {o c : String}
    (hclose : closing? o = some c) {inner : List Shape} (hinner : Balanced inner) :
    IsPrimary ("." :: "(" :: stops) (pathShapes (first :: more) ++ .mark "!" :: .mark o :: (inner ++ [.mark c])) := by
  refine ⟨⟨.word first, rfl, .inr (.inr (.inl ⟨rfl, .inl hfirst⟩))⟩, fun item n p hn ts rest hfit hrest => ?_⟩
  have hpositive : 0 < (pathShapes (first :: more)).length := by simp [pathShapes]
  rw [List.length_append] at hn
  obtain ⟨n, rfl⟩ := Nat.exists_eq_add_of_le' (show 2 ≤ n by omega)
  obtain ⟨front, back, hfront, hback, rfl⟩ := fit_append.mp hfit
  obtain ⟨gap, commented, call, rfl, hcall⟩ := fit_mark.mp hback
  have hmark : Starts ["!"] (⟨.mark, "!", gap, commented⟩ :: (call ++ rest)) := ⟨_, _, rfl, rfl, by simp⟩
  obtain ⟨a, ha⟩ := takes_expressionPath hfirst more front _ hfront (hmark.clear (by decide))
  obtain ⟨b, hb⟩ := takes_anyGroup hclose hinner call rest hcall trivial
  obtain ⟨gap', commented', us, rfl, hus⟩ := fit_word.mp hfront
  have hblock : startsBlock (⟨.word, first, gap', commented'⟩ :: (us ++ _)) = false :=
    startsBlock_path hfirst (starts_path hus hmark) (by decide)
  refine ⟨(), ?_⟩
  rw [List.append_assoc]
  rw [List.cons_append] at ha ⊢
  have hbrace : Clear ["\x7b"] rest := hrest.clear (by decide)
  rw [List.cons_append, primary_path hblock, pathOperand]
  simp [ha, hb, hbrace.isMark (m := "\x7b") (by simp)]

theorem isPrimary_number (digits : String) : IsPrimary ("\x7b" :: operatorMarks ++ stops) [⟨.number, digits, false⟩] := by
  refine ⟨⟨_, rfl, .inl rfl⟩, fun item n p hn ts rest hfit hrest => ?_⟩
  obtain ⟨n, rfl⟩ := Nat.exists_eq_succ_of_ne_zero (n := n) (by omega)
  obtain ⟨gap, commented, us, rfl, hus⟩ := fit_shape.mp hfit
  obtain rfl := fit_nil.mp hus
  have hdot : Clear ["."] rest := hrest.clear (by decide)
  refine ⟨(), ?_⟩
  rw [primary]
  simp [isBlockLike, startsBlock, number, hdot.mark (m := ".") (by simp)]

theorem isPrimary_string (text : String) : IsPrimary stops [⟨.string, text, false⟩] := by
  refine ⟨⟨_, rfl, .inr (.inl rfl)⟩, fun item n p hn ts rest hfit hrest => ?_⟩
  obtain ⟨n, rfl⟩ := Nat.exists_eq_succ_of_ne_zero (n := n) (by omega)
  obtain ⟨gap, commented, us, rfl, hus⟩ := fit_shape.mp hfit
  obtain rfl := fit_nil.mp hus
  refine ⟨(), ?_⟩
  rw [primary]
  simp [isBlockLike, startsBlock]

end Primaries

section Lists

variable {α : Type} {item : Reader α} {n : Nat} {p : Place} {ms : List String} {ss : List Shape}

theorem attributes_none {t : Token} (h : ¬(t.kind = .mark ∧ t.text = "#")) (rest : List Token) :
    attributes (t :: rest) = some ((), t :: rest) := by
  simp [attributes, repeated_none (outerAttribute_eq_none h rest)]

theorem exists_expression (h : ∃ s ∈ ss.head?, StartsExpression s) {ts : List Token} (hfit : Fit ts ss) :
    ∃ t more, ts = t :: more ∧ ¬(t.kind = .mark ∧ t.text ∉ ["(", "&", "*", "|"]) := by
  obtain ⟨s, hs, hstart⟩ := h
  obtain ⟨us, rfl⟩ := List.head?_eq_some_iff.mp hs
  obtain ⟨t, more, ⟨hkind, htext, _⟩, _, rfl⟩ := fit_cons.mp hfit
  refine ⟨t, more, rfl, ?_⟩
  rintro ⟨hmark, hnot⟩
  rw [hkind] at hmark
  rw [htext] at hnot
  rcases hstart with (hnumber | hstring | ⟨hword, _⟩ | ⟨_, heq⟩) | ⟨_, hmem⟩
  · cases hmark.symm.trans hnumber
  · cases hmark.symm.trans hstring
  · cases hmark.symm.trans hword
  · exact hnot (by simp [heq])
  · exact hnot (List.mem_cons_of_mem _ hmem)

private theorem takes_argumentOf (h : IsExpression .free ss) (hn : 10 * ss.length + 4 ≤ n) :
    Takes (argumentOf item n) ss (Starts stops) := by
  intro ts rest hfit hrest
  obtain ⟨n, rfl⟩ := Nat.exists_eq_succ_of_ne_zero (n := n) (by omega)
  obtain ⟨a, ha⟩ := h.reads item n (by omega) ts rest hfit hrest
  obtain ⟨t, more, rfl, ht⟩ := exists_expression h.start hfit
  have hattributes := attributes_none (t := t) (fun hmark => ht ⟨hmark.1, by rw [hmark.2]; decide⟩) (more ++ rest)
  refine ⟨a, ?_⟩
  rw [argumentOf]
  rw [List.cons_append] at ha ⊢
  simp [hattributes, ha]

theorem expression_closed {close : String} (hclose : close ∈ closers) {ts : List Token} (h : Starts [close] ts) :
    expression item n p ts = none := by
  obtain ⟨⟨kind, text, gap, commented⟩, after, rfl, rfl, hmem⟩ := h
  obtain rfl := List.mem_singleton.mp hmem
  have hsign : sign (⟨.mark, text, gap, commented⟩ :: after) = none := by
    simp only [closers, List.mem_cons, List.not_mem_nil, or_false] at hclose
    rcases hclose with rfl | rfl | rfl <;> simp [sign]
  have hsigns := repeated_none hsign
  simp only [closers, List.mem_cons, List.not_mem_nil, or_false] at hclose
  rcases n with _ | _ | _ | n
  · rfl
  · rcases hclose with rfl | rfl | rfl <;> simp [expression, rangeDots, operandOf]
  · rcases hclose with rfl | rfl | rfl <;> simp [expression, rangeDots, operandOf, hsigns, isOpen, primary]
  · rcases hclose with rfl | rfl | rfl <;>
      simp [expression, rangeDots, operandOf, hsigns, isOpen, primary, isBlockLike, startsBlock]

/-- Expressions in parentheses, with commas between them. -/
def listShapes (items : List (List Shape)) (comma : List Shape) : List Shape :=
  .mark "(" :: (separatedBy (.mark ",") items ++ (comma ++ [.mark ")"]))

theorem takes_expressions {items : List (List Shape)} (hitems : ∀ ss ∈ items, IsExpression .free ss) {comma : List Shape}
    (hcomma : comma = [] ∨ items ≠ [] ∧ comma = [.mark ","])
    (hn : 10 * (separatedBy (.mark ",") items).length + 4 ≤ n) :
    Takes (listed ")" (argumentOf item n)) (separatedBy (.mark ",") items ++ (comma ++ [.mark ")"])) fun _ => True := by
  refine takes_listed comma (fun ss hss => ?_) (by decide) hcomma fun ts hts => ?_
  · have hlength := length_le_separatedBy (.mark ",") hss
    exact (takes_argumentOf (hitems ss hss) (by omega)).mono fun rest hrest => hrest.mono (by decide)
  · have hnone (m : Nat) : expression item m .free ts = none := expression_closed (by decide) hts
    obtain ⟨⟨kind, text, gap, commented⟩, after, rfl, rfl, hmem⟩ := hts
    obtain rfl : text = ")" := by simpa using hmem
    cases n with
    | zero => rfl
    | succ n =>
      have hattributes := attributes_none (t := ⟨.mark, ")", gap, commented⟩) (by simp) after
      rw [argumentOf]
      simp [hattributes, hnone n]

/-- A call. -/
theorem isApplied_call {items : List (List Shape)} (hitems : ∀ ss ∈ items, IsExpression .free ss) {comma : List Shape}
    (hcomma : comma = [] ∨ items ≠ [] ∧ comma = [.mark ","]) : IsApplied (listShapes items comma) := by
  refine ⟨⟨.mark "(", rfl, rfl, by decide⟩, fun item n hn ts rest hfit _ => ?_⟩
  rw [listShapes] at hn hfit
  simp only [List.length_cons, List.length_append] at hn
  obtain ⟨n, rfl⟩ := Nat.exists_eq_succ_of_ne_zero (n := n) (by omega)
  obtain ⟨gap, commented, us, rfl, hus⟩ := fit_mark.mp hfit
  have hlist : Takes (listed ")" (argumentOf item n)) _ _ := takes_expressions hitems hcomma (by omega)
  obtain ⟨as, has⟩ := hlist us rest hus trivial
  refine ⟨(), ?_⟩
  rw [applied]
  simp [has]

/-- A tuple, or an expression in parentheses. -/
theorem isPrimary_tuple {items : List (List Shape)} (hitems : ∀ ss ∈ items, IsExpression .free ss) {comma : List Shape}
    (hcomma : comma = [] ∨ items ≠ [] ∧ comma = [.mark ","]) : IsPrimary ms (listShapes items comma) := by
  refine ⟨⟨.mark "(", rfl, .inr (.inr (.inr ⟨rfl, rfl⟩))⟩, fun item n p hn ts rest hfit _ => ?_⟩
  rw [listShapes] at hn hfit
  simp only [List.length_cons, List.length_append] at hn
  obtain ⟨n, rfl⟩ := Nat.exists_eq_succ_of_ne_zero (n := n) (by omega)
  obtain ⟨gap, commented, us, rfl, hus⟩ := fit_mark.mp hfit
  have hlist : Takes (listed ")" (argumentOf item n)) _ _ := takes_expressions hitems hcomma (by omega)
  obtain ⟨as, has⟩ := hlist us rest hus trivial
  refine ⟨(), ?_⟩
  rw [primary]
  simp [isBlockLike, startsBlock, has]

/-- A field, or the name of a method. -/
theorem isApplied_field (x : String) : IsApplied [.mark ".", .word x] := by
  refine ⟨⟨.mark ".", rfl, rfl, by decide⟩, fun item n hn ts rest hfit hrest => ?_⟩
  obtain ⟨n, rfl⟩ := Nat.exists_eq_succ_of_ne_zero (n := n) (by rw [List.length_cons] at hn; omega)
  obtain ⟨gap, commented, us, rfl, hus⟩ := fit_mark.mp hfit
  obtain ⟨gap', commented', vs, rfl, hvs⟩ := fit_word.mp hus
  obtain rfl := fit_nil.mp hvs
  refine ⟨(), ?_⟩
  rw [applied]
  simp [hrest.mark (m := "::") (by simp)]

/-- The name of a method with its generic arguments. -/
theorem isApplied_turbofish (x : String) {items : List (List Shape)} (hne : items ≠ [])
    (hitems : ∀ us ∈ items, IsArgument us) :
    IsApplied (.mark "." :: .word x :: .mark "::" :: argsShapes items) := by
  have hread : Takes genericArguments (argsShapes items) fun _ => True := by
    intro ts rest hfit _
    rw [argsShapes, if_neg hne] at hfit
    obtain ⟨gap, commented, us, rfl, hus⟩ := fit_mark.mp hfit
    have hlist : Takes (listed1 ">" (deep argument)) (separatedBy (.mark ",") items ++ ([] ++ [.mark ">"])) fun _ => True := by
      refine takes_listed1 [] hne (fun ss hss ts rest hfit hrest => ?_) (by decide) (.inl rfl)
      refine (hitems ss hss).reads _ ?_ ts rest hfit hrest
      rw [depth, List.length_append, hfit.length_eq]
      omega
    obtain ⟨as, has⟩ := hlist us rest hus trivial
    exact ⟨(), by simp [genericArguments, has]⟩
  refine ⟨⟨.mark ".", rfl, rfl, by decide⟩, fun item n hn ts rest hfit _ => ?_⟩
  obtain ⟨n, rfl⟩ := Nat.exists_eq_succ_of_ne_zero (n := n) (by rw [List.length_cons] at hn; omega)
  obtain ⟨gap, commented, us, rfl, hus⟩ := fit_mark.mp hfit
  obtain ⟨gap', commented', vs, rfl, hvs⟩ := fit_word.mp hus
  obtain ⟨gap'', commented'', xs, rfl, hxs⟩ := fit_mark.mp hvs
  obtain ⟨a, ha⟩ := hread xs rest hxs trivial
  refine ⟨(), ?_⟩
  rw [applied]
  simp [ha]

end Lists

section Signs

variable {α : Type} {item : Reader α} {n : Nat} {p : Place} {ms : List String} {ss : List Shape}

/-- A sign in front of an operand changes nothing of how it is read. -/
theorem operandOf_sign {ts rest : List Token} (h : sign ts = some ((), rest)) (hless : rest.length < ts.length) :
    operandOf item n p ts = operandOf item n p rest := by
  cases n with
  | zero => rfl
  | succ n =>
    rw [operandOf, run_bind, run_many, repeated_some h hless]
    rfl

theorem IsTerm.signed (h : IsTerm ms ss) {op : List Shape} (hstart : ∃ s ∈ op.head?, StartsExpression s)
    (hop : ∀ ts rest, Fit ts op → (∃ s ∈ ss.head?, ∃ t more, rest = t :: more ∧ s.Fits t) →
      sign (ts ++ rest) = some ((), rest)) : IsTerm ms (op ++ ss) := by
  obtain ⟨s, hs, hfirst⟩ := hstart
  obtain ⟨us, rfl⟩ := List.head?_eq_some_iff.mp hs
  refine ⟨⟨s, rfl, hfirst⟩, fun item n p hn ts rest hfit hrest => ?_⟩
  obtain ⟨front, back, hfront, hback, rfl⟩ := fit_append.mp hfit
  rw [List.length_append] at hn
  obtain ⟨a, ha⟩ := h.reads item n p (by omega) back rest hback hrest
  have hsign : sign (front ++ (back ++ rest)) = some ((), back ++ rest) := by
    refine hop front (back ++ rest) hfront ?_
    obtain ⟨s, hs, -⟩ := h.start
    obtain ⟨vs, rfl⟩ := List.head?_eq_some_iff.mp hs
    obtain ⟨t, more, ht, -, rfl⟩ := fit_cons.mp hback
    exact ⟨s, rfl, t, more ++ rest, rfl, ht⟩
  refine ⟨a, ?_⟩
  rw [List.append_assoc, operandOf_sign hsign, ha]
  have hlength := hfront.length_eq
  simp only [List.length_append, List.length_cons] at hlength ⊢
  omega

theorem IsTerm.deref (h : IsTerm ms ss) : IsTerm ms (.mark "*" :: ss) := by
  suffices hsigned : IsTerm ms ([.mark "*"] ++ ss) from hsigned
  refine h.signed ⟨_, rfl, .inr ⟨rfl, by decide⟩⟩ fun ts rest hfit _ => ?_
  obtain ⟨gap, commented, us, rfl, hus⟩ := fit_mark.mp hfit
  obtain rfl := fit_nil.mp hus
  simp [sign]

theorem IsTerm.borrow (h : IsTerm ms ss) (hhead : ∀ s ∈ ss.head?, s.text ∉ ["raw", "mut"]) :
    IsTerm ms (.mark "&" :: ss) := by
  suffices hsigned : IsTerm ms ([.mark "&"] ++ ss) from hsigned
  refine h.signed ⟨_, rfl, .inr ⟨rfl, by decide⟩⟩ fun ts rest hfit hrest => ?_
  obtain ⟨gap, commented, us, rfl, hus⟩ := fit_mark.mp hfit
  obtain rfl := fit_nil.mp hus
  obtain ⟨s, hs, t, more, rfl, -, htext, -⟩ := hrest
  have hnot := hhead s hs
  rw [← htext] at hnot
  simp only [List.mem_cons, List.not_mem_nil, or_false, not_or] at hnot
  simp [sign, hnot]

theorem IsTerm.borrowMut (h : IsTerm ms ss) : IsTerm ms (.mark "&" :: .word "mut" :: ss) := by
  suffices hsigned : IsTerm ms ([.mark "&", .word "mut"] ++ ss) from hsigned
  refine h.signed ⟨_, rfl, .inr ⟨rfl, by decide⟩⟩ fun ts rest hfit _ => ?_
  obtain ⟨gap, commented, us, rfl, hus⟩ := fit_mark.mp hfit
  obtain ⟨gap', commented', vs, rfl, hvs⟩ := fit_word.mp hus
  obtain rfl := fit_nil.mp hvs
  simp [sign]

/-- A closure is read up to the end of its parameter. -/
theorem takes_closureHead {x : String} (hx : x ∉ patternWords) :
    Takes closureHead [.mark "|", .word x, .mark "|"] fun _ => True := by
  intro ts rest hfit _
  obtain ⟨gap, commented, us, rfl, hus⟩ := fit_mark.mp hfit
  obtain ⟨gap', commented', vs, rfl, hvs⟩ := fit_word.mp hus
  obtain ⟨gap'', commented'', xs, rfl, hxs⟩ := fit_mark.mp hvs
  obtain rfl := fit_nil.mp hxs
  have hbar : Starts ["|"] (⟨.mark, "|", gap'', commented''⟩ :: rest) := ⟨_, _, rfl, rfl, by simp⟩
  obtain ⟨a, ha⟩ := (isPattern_name hx).takes_simplePattern [⟨.word, x, gap', commented'⟩] _
    (fit_word.mpr ⟨_, _, [], rfl, fit_nil.mpr rfl⟩) (hbar.clear (by decide))
  have hparam : (do simplePattern; optionalType) (⟨.word, x, gap', commented'⟩ :: ⟨.mark, "|", gap'', commented''⟩ :: rest) =
      some ((), ⟨.mark, "|", gap'', commented''⟩ :: rest) := by
    rw [List.cons_append, List.nil_append] at ha
    simp [ha, optionalType]
  have hmore : repeated (do mark ","; simplePattern; optionalType) (⟨.mark, "|", gap'', commented''⟩ :: rest) =
      ([], ⟨.mark, "|", gap'', commented''⟩ :: rest) := repeated_none (by simp)
  have hparams : separated "," (do simplePattern; optionalType)
      (⟨.word, x, gap', commented'⟩ :: ⟨.mark, "|", gap'', commented''⟩ :: rest) =
      some ([()], ⟨.mark, "|", gap'', commented''⟩ :: rest) := by
    rw [separated, run_bind, hparam, Option.bind_some, run_bind, run_many, hmore]
    rfl
  refine ⟨(), ?_⟩
  rw [closureHead]
  simp [hparams]

/-- A closure with one parameter. -/
theorem isExpression_closure {x : String} (hx : x ∉ patternWords) (h : IsExpression .free ss) :
    IsExpression .free (.mark "|" :: .word x :: .mark "|" :: ss) := by
  refine ⟨⟨_, rfl, .inr ⟨rfl, by decide⟩⟩, fun item n hn ts rest hfit hrest => ?_⟩
  simp only [List.length_cons] at hn
  obtain ⟨n, rfl⟩ := Nat.exists_eq_add_of_le' (show 3 ≤ n by omega)
  obtain ⟨front, back, hfront, hback, rfl⟩ := fit_append.mp (show Fit ts ([.mark "|", .word x, .mark "|"] ++ ss) from hfit)
  obtain ⟨_, hhead⟩ := takes_closureHead hx front (back ++ rest) hfront trivial
  obtain ⟨_, hbody⟩ := h.reads item n (by omega) back rest hback hrest
  have harrow : optionalMark "->" (back ++ rest) = some (false, back ++ rest) := by
    obtain ⟨t, more, rfl, ht⟩ := exists_expression h.start hback
    rw [List.cons_append, run_optionalMark, if_neg]
    simp only [Bool.and_eq_true, beq_iff_eq]
    rintro ⟨hkind, htext⟩
    exact ht ⟨hkind, by rw [htext]; decide⟩
  have hend : operandsAfter item (n + 2) .free rest = some ((), rest) := operandsAfter_end (behind_mem .free) hrest
  obtain ⟨gap, commented, us, rfl, -⟩ := fit_mark.mp hfront
  have hsigns := repeated_none (show sign (⟨.mark, "|", gap, commented⟩ :: (us ++ (back ++ rest))) = none by simp [sign])
  refine ⟨(), ?_⟩
  rw [expression, List.append_assoc]
  rw [List.cons_append] at hhead ⊢
  simp [rangeDots, operandOf, hsigns, isOpen, openExpression, jumpWord, hhead, harrow, hbody, hend]

end Signs

end TraitMock.Syntax.Reader
