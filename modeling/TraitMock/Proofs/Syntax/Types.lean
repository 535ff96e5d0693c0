import TraitMock.Proofs.Syntax.Patterns

namespace TraitMock.Syntax.Reader

section Ends

/-- The marks with which a type goes on, apart from a plus sign. -/
def typeMarks : List String := ["::", "<", "(", "!", "->"]

/-- The marks with which a type goes on. -/
def sumMarks : List String := "+" :: typeMarks

/-- The words that may stand behind a type: the one that begins conditions, and the one between a trait and the type
that implements it. -/
def endWords : List String := ["where", "for"]

/-- What was read has come to its end: none of the marks `ms` comes next, and no word but one that stands behind types. -/
def Ends (ms : List String) (rest : List Token) : Prop :=
  ∀ t ∈ rest.head?, t.kind = .mark ∧ t.text ∉ ms ∨ t.kind = .word ∧ t.text ∈ endWords

variable {ms ns : List String} {rest : List Token}

theorem Ends.clear (h : Ends ms rest) : Clear ms rest := by
  intro t ht hkind
  rcases h t ht with ⟨_, hnot⟩ | ⟨hword, _⟩
  · exact hnot
  · rw [hword] at hkind
    cases hkind

theorem Ends.mono (h : Ends ms rest) (hsub : ∀ m ∈ ns, m ∈ ms) : Ends ns rest :=
  fun t ht => (h t ht).imp_left fun hmark => ⟨hmark.1, fun hmem => hmark.2 (hsub t.text hmem)⟩

theorem Starts.ends (h : Starts ms rest) (hdisjoint : ∀ m ∈ ms, m ∉ ns) : Ends ns rest := by
  obtain ⟨t, after, rfl, hkind, hmem⟩ := h
  intro u hu
  obtain rfl : t = u := by simpa using hu
  exact .inl ⟨hkind, hdisjoint t.text hmem⟩

theorem ends_mark {m : String} (h : m ∉ ms) {gap : String} {commented : Bool} :
    Ends ms (⟨.mark, m, gap, commented⟩ :: rest) :=
  have hstarts : Starts [m] (⟨.mark, m, gap, commented⟩ :: rest) := ⟨_, rest, rfl, rfl, by simp⟩
  hstarts.ends (by simpa using h)

private theorem modifier_eq_none (h : Ends ms rest) : modifier rest = none := by
  cases rest with
  | nil => rfl
  | cons t after =>
    obtain ⟨kind, text, gap, commented⟩ := t
    rcases h _ rfl with ⟨hkind, _⟩ | ⟨hkind, htext⟩
    · obtain rfl : kind = .mark := hkind
      simp [modifier, externModifier]
    · obtain rfl : kind = .word := hkind
      have hnot : ∀ w ∈ endWords, w ≠ "extern" ∧ w ∉ modifierWords := by decide
      obtain ⟨hforeign, hmodifier⟩ := hnot text htext
      simp [modifier, externModifier, hforeign, hmodifier]

private theorem keyword_eq_none (h : Ends ms rest) {w : String} (hw : w ∉ endWords) : keyword w rest = none := by
  cases rest with
  | nil => rfl
  | cons t after =>
    obtain ⟨kind, text, gap, commented⟩ := t
    rcases h _ rfl with ⟨hkind, _⟩ | ⟨hkind, htext⟩
    · obtain rfl : kind = .mark := hkind
      simp
    · have hne : text ≠ w := fun heq => hw (heq ▸ htext)
      simp [hne]

/-- A word other than `fn` begins no function type if no word stands behind it. -/
theorem functionKeyword_eq_none {w gap : String} {commented : Bool} (hw : w ≠ "fn") (h : Ends ms rest) :
    functionKeyword (⟨.word, w, gap, commented⟩ :: rest) = none := by
  have hfn := keyword_eq_none h (w := "fn") (by decide)
  have hmore := repeated_none (modifier_eq_none h)
  have hstring : tokenThat (fun t => t.kind == .string || t.kind == .rawString) rest = none := by
    cases rest with
    | nil => rfl
    | cons t after =>
      rcases h t rfl with ⟨hkind, _⟩ | ⟨hkind, _⟩ <;> simp [hkind]
  have hfirst : modifier (⟨.word, w, gap, commented⟩ :: rest) = none ∨
      modifier (⟨.word, w, gap, commented⟩ :: rest) = some ((), rest) := by
    by_cases hforeign : w = "extern"
    · subst hforeign
      exact .inr (by simp [modifier, externModifier, hstring])
    · by_cases hmem : w ∈ modifierWords
      · exact .inr (by simp [modifier, externModifier, hforeign, hmem])
      · exact .inl (by simp [modifier, externModifier, hforeign, hmem])
  rcases hfirst with hnone | hsome
  · simp [functionKeyword, modifiers, hnone, hw]
  · simp [functionKeyword, modifiers, hsome, hmore, hfn]

end Ends

/-- A reader takes the tokens of the given shapes as something with the property `P`, whatever comes next with the
property `next`. -/
def TakesAs {α : Type} (P : α → Prop) (r : Reader α) (ss : List Shape) (next : List Token → Prop) : Prop :=
  ∀ ts rest, Fit ts ss → next rest → ∃ a, P a ∧ r (ts ++ rest) = some (a, rest)

theorem exists_textOf {α : Type} {r : Reader α} {ts rest : List Token} {a : α} (h : r ts = some (a, rest)) :
    ∃ text, textOf r ts = some (text, rest) := by
  rw [run_textOf, h]
  exact ⟨_, rfl⟩

theorem exists_withText {α : Type} {r : Reader α} {ts rest : List Token} {a : α} (h : r ts = some (a, rest)) :
    ∃ text, withText r ts = some ((a, text), rest) := by
  rw [run_withText, h]
  exact ⟨_, rfl⟩

section Paths

/-- The words that begin another type than a path. -/
def typeWords : List String := ["dyn", "impl", "for", "fn", "use", "mut", "self", "_", "true", "false"]

/-- A path without arguments. -/
def pathShapes : List String → List Shape
  | [] => []
  | first :: more => .word first :: more.flatMap fun s => [.mark "::", .word s]

/-- Arguments in angle brackets, or nothing if there are none. -/
def argsShapes (items : List (List Shape)) : List Shape :=
  if items = [] then [] else .mark "<" :: (separatedBy (.mark ",") items ++ [.mark ">"])

/-- Shapes that are read as an argument in angle brackets. -/
structure IsArgument (ss : List Shape) : Prop where
  flat : Flat ss
  reads : ∀ n, 10 * ss.length + 4 ≤ n → Takes (argument n) ss (Starts [",", ">"])

private theorem takes_arguments {items : List (List Shape)} (hne : items ≠ []) (hitems : ∀ ss ∈ items, IsArgument ss)
    {n : Nat} (hn : 10 * (argsShapes items).length ≤ n + 10) (start : List Token) (path : PathText) :
    TakesAs (fun x => x.1 = path ∧ x.2.isSome) (arguments n start path) (argsShapes items) (Clear ["::"]) := by
  intro ts rest hfit hrest
  rw [argsShapes, if_neg hne] at hn hfit
  simp only [List.length_cons, List.length_append, List.length_nil] at hn
  obtain ⟨n, rfl⟩ := Nat.exists_eq_succ_of_ne_zero (n := n) (by omega)
  obtain ⟨gap, commented, us, rfl, hus⟩ := fit_mark.mp hfit
  have htakes : Takes (listed1 ">" (argument n)) (separatedBy (.mark ",") items ++ ([] ++ [.mark ">"])) fun _ => True :=
    takes_listed1 [] hne (fun ss hss => ?_) (by decide) (.inl rfl)
  · obtain ⟨as, has⟩ := htakes us rest hus trivial
    refine ⟨(path, some (as.flatMap id)), ⟨rfl, rfl⟩, ?_⟩
    rw [arguments]
    simp [has, hrest.isMark (m := "::") (by simp)]
  · have hlength := length_le_separatedBy (.mark ",") hss
    exact (hitems ss hss).reads n (by omega)

/-- The segments of a path behind its first one, each with its colons. -/
def behindFirst (more : List String) : List Shape := more.flatMap fun s => [.mark "::", .word s]

theorem length_behindFirst (more : List String) : (behindFirst more).length = 2 * more.length := by
  induction more with
  | nil => rfl
  | cons s more ih =>
    rw [behindFirst, List.flatMap_cons, List.length_append]
    rw [behindFirst] at ih
    simp only [ih, List.length_cons, List.length_nil]
    omega

/-- What stands behind the name of a path: more of the path, arguments, or what comes next. -/
theorem clear_argsShapes {items : List (List Shape)} {ts rest : List Token} (hfit : Fit ts (argsShapes items))
    (hrest : Clear ["::"] rest) : Clear ["::"] (ts ++ rest) := by
  unfold argsShapes at hfit
  split at hfit
  · rwa [fit_nil.mp hfit]
  · obtain ⟨gap, commented, us, rfl, -⟩ := fit_mark.mp hfit
    intro t ht _
    obtain rfl : _ = t := by simpa using ht
    simp

private theorem isMark_argsShapes {items : List (List Shape)} {ts rest : List Token} (hfit : Fit ts (argsShapes items))
    (hrest : Clear ["<"] rest) : isMark "<" (ts ++ rest) = some (decide (items ≠ []), ts ++ rest) := by
  unfold argsShapes at hfit
  split at hfit
  · rename_i hnil
    rw [fit_nil.mp hfit, List.nil_append, hrest.isMark (by simp)]
    simp [hnil]
  · rename_i hne
    obtain ⟨gap, commented, us, rfl, -⟩ := fit_mark.mp hfit
    simp [hne]

/-- The end of a path: its arguments, or nothing. -/
theorem takes_pathEnd {items : List (List Shape)} (hitems : ∀ ss ∈ items, IsArgument ss) {n : Nat}
    (hn : 10 * (argsShapes items).length ≤ n + 10) (start : List Token) (path : PathText) :
    TakesAs (fun x => x.1 = path ∧ x.2.isSome = decide (items ≠ []))
      (do if ← isMark "<" then arguments n start path else pure (path, none)) (argsShapes items)
      (Clear ["::", "<"]) := by
  intro ts rest hfit hrest
  have hopen := isMark_argsShapes hfit (hrest.mono (by simp))
  by_cases hne : items = []
  · have hts : ts = [] := by
      subst hne
      exact fit_nil.mp hfit
    refine ⟨(path, none), ⟨rfl, by simp [hne]⟩, ?_⟩
    simp [hts, hrest.isMark (m := "<") (by simp)]
  · obtain ⟨a, ha, hread⟩ := takes_arguments hne hitems hn start path ts rest hfit (hrest.mono (by simp))
    refine ⟨a, ⟨ha.1, by simp [ha.2, hne]⟩, ?_⟩
    simp [hopen, hne, hread]

private theorem takes_pathSegments {more : List String} (hmore : more ≠ []) {items : List (List Shape)}
    (hitems : ∀ ss ∈ items, IsArgument ss) {n : Nat}
    (hn : 10 * (behindFirst more ++ argsShapes items).length ≤ n) (start : List Token) :
    TakesAs (fun x => x.1.isName = false ∧ x.2.isSome = decide (items ≠ [])) (segments n start)
      (behindFirst more ++ argsShapes items) (Clear ["::", "<"]) := by
  induction more generalizing n with
  | nil => exact absurd rfl hmore
  | cons s more ih =>
    intro ts rest hfit hrest
    rw [List.length_append, length_behindFirst, List.length_cons] at hn
    obtain ⟨n, rfl⟩ := Nat.exists_eq_succ_of_ne_zero (n := n) (by omega)
    obtain ⟨gap, commented, us, rfl, hus⟩ := fit_mark.mp hfit
    obtain ⟨gap', commented', vs, rfl, hvs⟩ := fit_word.mp hus
    rw [segments]
    by_cases hnil : more = []
    · subst hnil
      have hclear := clear_argsShapes hvs (hrest.mono (by simp))
      have hend := takes_pathEnd hitems (n := n) (by omega) start
      obtain ⟨a, ⟨hpath, hargs⟩, hread⟩ := hend ⟨_, false⟩ vs rest hvs hrest
      refine ⟨a, ⟨by rw [hpath], hargs⟩, ?_⟩
      simpa [textSince, hclear.isMark (m := "::") (by simp)] using hread
    · obtain ⟨s', more', rfl⟩ := List.exists_cons_of_ne_nil hnil
      have hlength : 10 * (behindFirst (s' :: more') ++ argsShapes items).length ≤ n := by
        rw [List.length_append, length_behindFirst]
        simp only [List.length_cons] at hn ⊢
        omega
      obtain ⟨a, ha, hread⟩ := ih hnil hlength vs rest hvs hrest
      refine ⟨a, ha, ?_⟩
      obtain ⟨gap'', commented'', ws, rfl, -⟩ := fit_mark.mp hvs
      simpa [textSince] using hread

/-- A path with its arguments. A path of one segment is a name. -/
theorem takes_pathWithArguments {first : String} {more : List String} {items : List (List Shape)}
    (hitems : ∀ ss ∈ items, IsArgument ss) {n : Nat}
    (hn : 10 * (pathShapes (first :: more) ++ argsShapes items).length ≤ n + 5) :
    TakesAs (fun x => (x.1 = ⟨first, true⟩ ∧ more = [] ∨ x.1.isName = false ∧ more ≠ []) ∧
        x.2.isSome = decide (items ≠ []))
      (pathWithArguments n) (pathShapes (first :: more) ++ argsShapes items) (Clear ["::", "<"]) := by
  intro ts rest hfit hrest
  have hn' : 10 * (1 + (2 * more.length + (argsShapes items).length)) ≤ n + 5 := by
    rw [List.length_append, pathShapes, List.length_cons] at hn
    have hmore := length_behindFirst more
    rw [behindFirst] at hmore
    omega
  obtain ⟨n, rfl⟩ := Nat.exists_eq_succ_of_ne_zero (n := n) (by omega)
  obtain ⟨gap, commented, us, rfl, hus⟩ := fit_word.mp hfit
  rw [pathWithArguments]
  by_cases hnil : more = []
  · subst hnil
    have hclear := clear_argsShapes hus (hrest.mono (by simp))
    obtain ⟨a, ⟨hpath, hargs⟩, hread⟩ := takes_pathEnd hitems (n := n) (by omega)
      (⟨.word, first, gap, commented⟩ :: (us ++ rest)) ⟨first, true⟩ us rest hus hrest
    refine ⟨a, ⟨.inl ⟨hpath, rfl⟩, hargs⟩, ?_⟩
    simpa [hclear.isMark (m := "::") (by simp)] using hread
  · have hlength : 10 * (behindFirst more ++ argsShapes items).length ≤ n := by
      rw [List.length_append, length_behindFirst]
      omega
    obtain ⟨a, ⟨hname, hargs⟩, hread⟩ := takes_pathSegments hnil hitems hlength
      (⟨.word, first, gap, commented⟩ :: (us ++ rest)) us rest hus hrest
    refine ⟨a, ⟨.inr ⟨hname, hnil⟩, hargs⟩, ?_⟩
    obtain ⟨s, more, rfl⟩ := List.exists_cons_of_ne_nil hnil
    obtain ⟨gap', commented', vs, rfl, -⟩ := fit_mark.mp hus
    simpa using hread

/-- A path that can stand for a type: it does not begin with a word that begins another one. -/
structure IsTypePath (segs : List String) : Prop where
  ne_nil : segs ≠ []
  head : ∀ w ∈ segs.head?, w ∉ typeWords
  alone : ∀ w, segs = [w] → w ∉ pathWords

instance : DecidablePred IsTypePath := fun segs =>
  decidable_of_iff (segs ≠ [] ∧ (∀ w ∈ segs.head?, w ∉ typeWords) ∧ ∀ w ∈ pathWords, segs ≠ [w])
    ⟨fun ⟨hne, hhead, halone⟩ => ⟨hne, hhead, fun w hw hpath => halone w hpath hw⟩,
      fun h => ⟨h.ne_nil, h.head, fun w hpath hw => h.alone w hw hpath⟩⟩

/-- What may come next behind the name of a type. -/
theorem ends_behind {more : List String} {items : List (List Shape)} {ts rest : List Token}
    (hfit : Fit ts (behindFirst more ++ argsShapes items)) (hrest : Ends ["::", "<"] rest) :
    Ends [] (ts ++ rest) := by
  cases more with
  | nil =>
    rw [behindFirst, List.flatMap_nil, List.nil_append, argsShapes] at hfit
    split at hfit
    · rw [fit_nil.mp hfit]
      exact hrest.mono (by simp)
    · obtain ⟨gap, commented, us, rfl, -⟩ := fit_mark.mp hfit
      intro t ht
      obtain rfl : _ = t := by simpa using ht
      simp
  | cons s more =>
    obtain ⟨gap, commented, us, rfl, -⟩ := fit_mark.mp hfit
    intro t ht
    obtain rfl : _ = t := by simpa using ht
    simp

/-- What a path is read as, with arguments or without. -/
def IsPathType (segs : List String) (hasArguments : Bool) : TypeExpr → Prop
  | .generic _ _ => hasArguments = true
  | .named path => hasArguments = false ∧ ∀ w, segs = [w] → path = ⟨w, true⟩
  | .primitive w => segs = [w] ∧ w ∈ primitives
  | _ => False

theorem takes_pathFrom {segs : List String} (hsegs : IsTypePath segs) {items : List (List Shape)}
    (hitems : ∀ ss ∈ items, IsArgument ss) {n : Nat}
    (hn : 10 * (pathShapes segs ++ argsShapes items).length ≤ n + 4) (start : List Token) (binder : Option String) :
    TakesAs (IsPathType segs (decide (items ≠ []))) (pathFrom n start binder) (pathShapes segs ++ argsShapes items) (Ends typeMarks) := by
  intro ts rest hfit hrest
  obtain ⟨first, more, rfl⟩ := List.exists_cons_of_ne_nil hsegs.ne_nil
  have hpos : 0 < (pathShapes (first :: more) ++ argsShapes items).length := by simp [pathShapes]
  obtain ⟨n, rfl⟩ := Nat.exists_eq_succ_of_ne_zero (n := n) (by omega)
  obtain ⟨⟨path, args⟩, ⟨hpath, hargs⟩, hread⟩ := takes_pathWithArguments hitems (n := n) (by omega) ts rest hfit
    (hrest.clear.mono (by decide))
  rw [pathFrom]
  cases args with
  | some args => exact ⟨.generic path args, hargs.symm, by simp [hread]⟩
  | none =>
    have hnone : decide (items ≠ []) = false := hargs.symm
    have hbang := hrest.clear.isMark (m := "(") (by decide)
    have hcall := hrest.clear.isMark (m := "!") (by decide)
    rcases hpath with ⟨rfl, rfl⟩ | ⟨hname, hmore⟩
    · have halone := hsegs.alone first rfl
      by_cases hprimitive : first ∈ primitives
      · exact ⟨.primitive first, ⟨rfl, hprimitive⟩, by simp [hread, hcall, hbang, halone, hprimitive]⟩
      · refine ⟨.named ⟨first, true⟩, ⟨hnone, fun w hw => ?_⟩, by simp [hread, hcall, hbang, halone, hprimitive]⟩
        rw [(List.cons.inj hw).1]
    · have hnot : path.isName = false := hname
      refine ⟨.named path, ⟨hnone, fun w hw => ?_⟩, by simp [hread, hcall, hbang, hnot]⟩
      exact absurd (List.cons.inj hw).2 hmore

/-- A word that begins no function type and no quantified one begins a path. -/
theorem namedType_word {w gap : String} {commented : Bool} {rest : List Token} (hfor : w ≠ "for") (hfn : w ≠ "fn")
    (hrest : Ends [] rest) (n : Nat) :
    namedType (n + 1) (⟨.word, w, gap, commented⟩ :: rest) =
      pathFrom n (⟨.word, w, gap, commented⟩ :: rest) none (⟨.word, w, gap, commented⟩ :: rest) := by
  have hnone : functionKeyword (⟨.word, w, gap, commented⟩ :: rest) = none := functionKeyword_eq_none hfn hrest
  rw [namedType]
  cases hpath : pathFrom n (⟨.word, w, gap, commented⟩ :: rest) none (⟨.word, w, gap, commented⟩ :: rest) <;>
    simp [hfor, hnone, hpath]

theorem takes_namedType {segs : List String} (hsegs : IsTypePath segs) {items : List (List Shape)}
    (hitems : ∀ ss ∈ items, IsArgument ss) {n : Nat}
    (hn : 10 * (pathShapes segs ++ argsShapes items).length ≤ n + 3) :
    TakesAs (IsPathType segs (decide (items ≠ []))) (namedType n) (pathShapes segs ++ argsShapes items)
      (Ends typeMarks) := by
  intro ts rest hfit hrest
  obtain ⟨first, more, rfl⟩ := List.exists_cons_of_ne_nil hsegs.ne_nil
  have hpos : 0 < (pathShapes (first :: more) ++ argsShapes items).length := by simp [pathShapes]
  obtain ⟨n, rfl⟩ := Nat.exists_eq_succ_of_ne_zero (n := n) (by omega)
  obtain ⟨gap, commented, us, rfl, hus⟩ := fit_word.mp hfit
  have hfirst : first ∉ typeWords := hsegs.head first rfl
  have hends : Ends [] (us ++ rest) := ends_behind hus (hrest.mono (by decide))
  simp only [typeWords, List.mem_cons, List.not_mem_nil, or_false, not_or] at hfirst
  obtain ⟨a, ha, hread⟩ := takes_pathFrom hsegs hitems (n := n) (by omega)
    (⟨.word, first, gap, commented⟩ :: (us ++ rest)) none _ rest hfit hrest
  refine ⟨a, ha, ?_⟩
  rw [List.cons_append, namedType_word hfirst.2.2.1 hfirst.2.2.2.1 hends]
  exact hread

theorem flat_pathShapes (segs : List String) : Flat (pathShapes segs) := by
  refine flat_of_forall fun s hs => ?_
  cases segs with
  | nil => cases hs
  | cons first more =>
    rcases List.mem_cons.mp hs with rfl | hs
    · exact fun h => by cases h.1
    · obtain ⟨w, -, hw⟩ := List.mem_flatMap.mp hs
      simp only [List.mem_cons, List.not_mem_nil, or_false] at hw
      rcases hw with rfl | rfl
      · exact fun h => absurd h.2 (by decide)
      · exact fun h => by cases h.1

theorem isFlat_mark {m : String} (h : m ∉ ":" :: brackets) : (Shape.mark m).IsFlat := fun hs => h hs.2

theorem isFlat_word (w : String) : (Shape.word w).IsFlat := fun h => by cases h.1

theorem flat_argsShapes {items : List (List Shape)} (hitems : ∀ ss ∈ items, IsArgument ss) : Flat (argsShapes items) := by
  unfold argsShapes
  split
  · exact .nil
  · have hlist := flat_separatedBy (fun ss hss => (hitems ss hss).flat) (isFlat_mark (m := ",") (by decide))
    exact .cons (isFlat_mark (by decide)) (hlist.append (.cons (isFlat_mark (by decide)) .nil))

end Paths

section Singles

/-- A shape with which a type begins that can stand in any place. -/
def StartsType (s : Shape) : Prop :=
  s.kind = .word ∧ s.text ∉ ["use", "mut", "self", "_", "true", "false"] ∨
    s.kind = .mark ∧ s.text ∈ ["&", "*", "[", "(", "!"]

/-- Shapes that are read as a type without a plus sign, up to the marks `ms` or a `where` clause. -/
structure IsSingle (ms : List String) (ss : List Shape) : Prop where
  start : ∃ s ∈ ss.head?, StartsType s
  flat : Flat ss
  noSelf : ∀ ts rest, Fit ts ss → selfParameter (ts ++ rest) = none
  reads : ∀ n, 10 * ss.length ≤ n → TakesAs (∀ l, · ≠ .lifetime l) (single n) ss (Ends ms)

/-- Shapes that are read as a type. -/
structure IsType (ss : List Shape) : Prop where
  start : ∃ s ∈ ss.head?, StartsType s
  flat : Flat ss
  noSelf : ∀ ts rest, Fit ts ss → selfParameter (ts ++ rest) = none
  reads : ∀ n, 10 * ss.length + 2 ≤ n → Takes (typeUpTo n) ss (Ends sumMarks)

/-- Shapes that are read between plus signs. -/
structure IsOperand (ss : List Shape) : Prop where
  flat : Flat ss
  reads : ∀ n, 10 * ss.length + 1 ≤ n → Takes (operand n) ss (Ends typeMarks)

variable {ms : List String} {ss : List Shape}

theorem IsSingle.mono {ns : List String} (h : IsSingle ms ss) (hsub : ∀ m ∈ ms, m ∈ ns) : IsSingle ns ss :=
  ⟨h.start, h.flat, h.noSelf, fun n hn ts rest hfit hrest => h.reads n hn ts rest hfit (hrest.mono hsub)⟩

theorem IsSingle.ne_nil (h : IsSingle ms ss) : ss ≠ [] := by
  rintro rfl
  obtain ⟨s, hs, _⟩ := h.start
  cases hs

theorem exists_head (h : ∃ s ∈ ss.head?, StartsType s) {ts : List Token} (hfit : Fit ts ss) :
    ∃ t more, ts = t :: more ∧ (t.kind = .word ∧ t.text ∉ ["use", "mut", "self", "_", "true", "false"] ∨
      t.kind = .mark ∧ t.text ∈ ["&", "*", "[", "(", "!"]) := by
  obtain ⟨s, hs, hstart⟩ := h
  obtain ⟨us, rfl⟩ := List.head?_eq_some_iff.mp hs
  obtain ⟨t, more, ⟨hkind, htext, _⟩, _, rfl⟩ := fit_cons.mp hfit
  rw [StartsType, ← hkind, ← htext] at hstart
  exact ⟨t, more, rfl, hstart⟩

/-- No type begins with what a method is called by, apart from a reference. -/
theorem selfParameter_eq_none {t : Token} (h : t.kind = .word ∧ t.text ∉ ["mut", "self"] ∨ t.kind = .mark ∧ t.text ≠ "&")
    (rest : List Token) : selfParameter (t :: rest) = none := by
  rcases h with ⟨hkind, htext⟩ | ⟨hkind, htext⟩
  · simp only [List.mem_cons, List.not_mem_nil, or_false, not_or] at htext
    simp [selfParameter, hkind, htext]
  · simp [selfParameter, hkind, htext]

/-- The operand of a plus sign that is no lifetime. -/
theorem IsSingle.operand_eq (h : IsSingle ms ss) {ts rest : List Token} (hfit : Fit ts ss) (n : Nat) :
    operand (n + 1) (ts ++ rest) = single n (ts ++ rest) := by
  obtain ⟨t, more, rfl, hstart⟩ := exists_head h.start hfit
  rw [operand]
  rcases hstart with ⟨hkind, htext⟩ | ⟨hkind, htext⟩
  · simp only [List.mem_cons, List.not_mem_nil, or_false, not_or] at htext
    simp [hkind, htext]
  · simp [hkind]

theorem IsSingle.isOperand (h : IsSingle typeMarks ss) : IsOperand ss := by
  refine ⟨h.flat, fun n hn ts rest hfit hrest => ?_⟩
  obtain ⟨n, rfl⟩ := Nat.exists_eq_succ_of_ne_zero (n := n) (by omega)
  obtain ⟨t, _, hread⟩ := h.reads n (by omega) ts rest hfit hrest
  exact ⟨t, by rw [h.operand_eq hfit, hread]⟩

theorem isOperand_lifetime (l : String) : IsOperand [⟨.lifetime, l, false⟩] := by
  refine ⟨flat_of_forall (by simp [Shape.IsFlat]), fun n hn ts rest hfit hrest => ?_⟩
  obtain ⟨n, rfl⟩ := Nat.exists_eq_succ_of_ne_zero (n := n) (by omega)
  obtain ⟨gap, commented, us, rfl, hus⟩ := fit_shape.mp hfit
  obtain rfl := fit_nil.mp hus
  exact ⟨.lifetime l, by rw [operand]; simp⟩

/-- Bounds behind a first one, each with its plus sign. -/
def plusShapes (more : List (List Shape)) : List Shape := more.flatMap (.mark "+" :: ·)

theorem length_le_plusShapes {more : List (List Shape)} (h : ss ∈ more) : ss.length + 1 ≤ (plusShapes more).length :=
  (List.sublist_flatten_of_mem (List.mem_map_of_mem (f := (Shape.mark "+" :: ·)) h)).length_le

theorem flat_plusShapes {more : List (List Shape)} (h : ∀ us ∈ more, Flat us) : Flat (plusShapes more) := by
  induction more with
  | nil => exact .nil
  | cons us more ih =>
    obtain ⟨hus, hmore⟩ := List.forall_mem_cons.mp h
    exact (Flat.cons (isFlat_mark (by decide)) hus).append (ih hmore)

theorem ends_plusShapes {more : List (List Shape)} {ts rest : List Token} (hfit : Fit ts (plusShapes more))
    (hrest : Ends sumMarks rest) : Ends typeMarks (ts ++ rest) := by
  cases more with
  | nil =>
    rw [fit_nil.mp hfit]
    exact hrest.mono (by decide)
  | cons us more =>
    obtain ⟨gap, commented, us, rfl, -⟩ := fit_mark.mp hfit
    intro t ht
    obtain rfl : _ = t := by simpa using ht
    exact .inl ⟨rfl, by simp [typeMarks]⟩

/-- Bounds with plus signs between them. -/
theorem IsSingle.isType_sum (h : IsSingle typeMarks ss) {more : List (List Shape)} (hmore : ∀ us ∈ more, IsOperand us) :
    IsType (ss ++ plusShapes more) := by
  refine ⟨?_, h.flat.append (flat_plusShapes fun us hus => (hmore us hus).flat), fun ts rest hfit => ?_,
    fun n hn ts rest hfit hrest => ?_⟩
  · obtain ⟨s, hs, hstart⟩ := h.start
    obtain ⟨us, rfl⟩ := List.head?_eq_some_iff.mp hs
    exact ⟨s, rfl, hstart⟩
  · obtain ⟨front, back, hfront, -, rfl⟩ := fit_append.mp hfit
    rw [List.append_assoc]
    exact h.noSelf front _ hfront
  · obtain ⟨n, rfl⟩ := Nat.exists_eq_succ_of_ne_zero (n := n) (by omega)
    obtain ⟨front, back, hfront, hback, rfl⟩ := fit_append.mp hfit
    rw [List.length_append] at hn
    obtain ⟨n, rfl⟩ := Nat.exists_eq_succ_of_ne_zero (n := n) (by omega)
    obtain ⟨t, hne, hread⟩ := h.reads n (by omega) front (back ++ rest) hfront (ends_plusShapes hback hrest)
    have hplus : ∀ rest, Ends sumMarks rest → (do mark "+"; operand (n + 1)) rest = none := fun rest hrest => by
      simp [hrest.clear.mark (m := "+") (by decide)]
    have hoperands : ∀ us ∈ more, Takes (operand (n + 1)) us fun rest => Starts ["+"] rest ∨ Ends sumMarks rest := by
      intro us hus
      have hlength := length_le_plusShapes hus
      refine ((hmore us hus).reads (n + 1) (by omega)).mono fun rest hrest => ?_
      exact hrest.elim (·.ends (by decide)) (·.mono (by decide))
    obtain ⟨others, hothers⟩ := takes_more hoperands hplus back rest hback hrest
    refine ⟨others.foldl .sum t, ?_⟩
    rw [typeUpTo, List.append_assoc]
    simp only [run_bind, h.operand_eq hfront, hread, Option.bind_some, hothers]
    cases t with
    | lifetime l => exact absurd rfl (hne l)
    | _ => rfl

theorem IsSingle.isType (h : IsSingle sumMarks ss) : IsType ss := by
  refine ⟨h.start, h.flat, h.noSelf, fun n hn ts rest hfit hrest => ?_⟩
  obtain ⟨n, rfl⟩ := Nat.exists_eq_succ_of_ne_zero (n := n) (by omega)
  obtain ⟨n, rfl⟩ := Nat.exists_eq_succ_of_ne_zero (n := n) (by omega)
  obtain ⟨t, hne, hread⟩ := h.reads n (by omega) ts rest hfit hrest
  have hmore : repeated (do mark "+"; operand (n + 1)) rest = ([], rest) :=
    repeated_none (by simp [hrest.clear.mark (m := "+") (by decide)])
  refine ⟨t, ?_⟩
  rw [typeUpTo]
  simp only [run_bind, h.operand_eq hfit, hread, Option.bind_some, run_many, hmore]
  cases t with
  | lifetime l => exact absurd rfl (hne l)
  | _ => rfl

/-- Deep enough for what is left, a type is read. -/
theorem IsType.takes_type (h : IsType ss) : Takes type ss (Ends sumMarks) := by
  intro ts rest hfit hrest
  refine h.reads _ ?_ ts rest hfit hrest
  rw [depth, List.length_append, hfit.length_eq]
  omega

private theorem startsType_word {w : String} (h : w ∉ typeWords) : StartsType (.word w) := by
  simp only [typeWords, List.mem_cons, List.not_mem_nil, or_false, not_or] at h
  exact .inl ⟨rfl, by simp [Shape.word, h]⟩

theorem startsType_mark {m : String} (h : m ∈ ["&", "*", "[", "(", "!"]) : StartsType (.mark m) := .inr ⟨rfl, h⟩

/-- Shapes that begin with a word are no reference. -/
theorem noSelf_word {w : String} (hw : w ∉ ["mut", "self"]) {ts rest : List Token} (hfit : Fit ts (.word w :: ss)) :
    selfParameter (ts ++ rest) = none := by
  obtain ⟨gap, commented, us, rfl, -⟩ := fit_word.mp hfit
  exact selfParameter_eq_none (.inl ⟨rfl, hw⟩) _

theorem noSelf_mark {m : String} (hm : m ≠ "&") {ts rest : List Token} (hfit : Fit ts (.mark m :: ss)) :
    selfParameter (ts ++ rest) = none := by
  obtain ⟨gap, commented, us, rfl, -⟩ := fit_mark.mp hfit
  exact selfParameter_eq_none (.inr ⟨rfl, hm⟩) _

theorem single_word {w gap : String} {commented : Bool} {rest : List Token} (hdyn : w ≠ "dyn") (himpl : w ≠ "impl")
    (n : Nat) : single (n + 1) (⟨.word, w, gap, commented⟩ :: rest) =
      namedType n (⟨.word, w, gap, commented⟩ :: rest) := by
  rw [single]
  simp only [run_bind, run_peek, List.head?_cons, Option.bind_some]

private theorem IsPathType.ne_lifetime {segs : List String} {hasArguments : Bool} {t : TypeExpr}
    (h : IsPathType segs hasArguments t) (l : String) : t ≠ .lifetime l := by
  rintro rfl
  exact h

theorem isSingle_path {segs : List String} (hsegs : IsTypePath segs) {items : List (List Shape)}
    (hitems : ∀ us ∈ items, IsArgument us) : IsSingle typeMarks (pathShapes segs ++ argsShapes items) := by
  have hflat := (flat_pathShapes segs).append (flat_argsShapes hitems)
  obtain ⟨first, more, rfl⟩ := List.exists_cons_of_ne_nil hsegs.ne_nil
  have hfirst : first ∉ typeWords := hsegs.head first rfl
  refine ⟨⟨.word first, rfl, startsType_word hfirst⟩, hflat, fun ts rest hfit => ?_, fun n hn ts rest hfit hrest => ?_⟩
  · refine noSelf_word (fun hmem => hfirst ?_) hfit
    simp only [List.mem_cons, List.not_mem_nil, or_false] at hmem
    rcases hmem with rfl | rfl <;> decide
  · have hpos : 0 < (pathShapes (first :: more) ++ argsShapes items).length := by simp [pathShapes]
    obtain ⟨n, rfl⟩ := Nat.exists_eq_succ_of_ne_zero (n := n) (by omega)
    obtain ⟨t, ht, hread⟩ := takes_namedType hsegs hitems (n := n) (by omega) ts rest hfit hrest
    obtain ⟨gap, commented, us, rfl, hus⟩ := fit_word.mp hfit
    simp only [typeWords, List.mem_cons, List.not_mem_nil, or_false, not_or] at hfirst
    exact ⟨t, ht.ne_lifetime, by rw [List.cons_append, single_word hfirst.1 hfirst.2.1]; exact hread⟩

/-- A path stands for a type by itself. -/
theorem isType_generic {segs : List String} (hsegs : IsTypePath segs) {items : List (List Shape)}
    (hitems : ∀ us ∈ items, IsArgument us) : IsType (pathShapes segs ++ argsShapes items) :=
  ((isSingle_path hsegs hitems).mono fun _ => List.mem_cons_of_mem _).isType

theorem isType_path {segs : List String} (h : IsTypePath segs) : IsType (pathShapes segs) := by
  have hargs : ∀ ss ∈ ([] : List (List Shape)), IsArgument ss := by simp
  simpa [argsShapes] using isType_generic h hargs

theorem isTypePath_word {w : String} (hw : w ∉ typeWords) (hpath : w ∉ pathWords) : IsTypePath [w] where
  ne_nil := List.cons_ne_nil w []
  head _ hx := Option.some.inj hx ▸ hw
  alone _ hx := (List.singleton_inj.mp hx) ▸ hpath

theorem isTypePath_cons {w next : String} (hw : w ∉ typeWords) (more : List String) : IsTypePath (w :: next :: more) where
  ne_nil := List.cons_ne_nil w _
  head _ hx := Option.some.inj hx ▸ hw
  alone _ hx := absurd hx (by simp)

end Singles

end TraitMock.Syntax.Reader
