import TraitMock.Proofs.Syntax.Spelling
import TraitMock.Syntax.Type

namespace TraitMock.Syntax.Reader

section Steps

variable {α β : Type}

@[simp] theorem run_bind (r : Reader α) (f : α → Reader β) (ts : List Token) :
    (r >>= f) ts = (r ts).bind fun x => f x.1 x.2 := by
  show StateT.bind r f ts = _
  unfold StateT.bind
  cases r ts <;> rfl

@[simp] theorem run_pure (a : α) (ts : List Token) : (pure a : Reader α) ts = some (a, ts) := rfl

@[simp] theorem run_map (f : α → β) (r : Reader α) (ts : List Token) :
    (f <$> r) ts = (r ts).map fun x => (f x.1, x.2) := by
  show StateT.map f r ts = _
  unfold StateT.map
  cases r ts <;> rfl

@[simp] theorem run_failure (ts : List Token) : (failure : Reader α) ts = none := rfl

@[simp] theorem run_orElse (r s : Reader α) (ts : List Token) : (r <|> s) ts = (r ts).or (s ts) := by
  show StateT.orElse r (fun _ => s) ts = _
  unfold StateT.orElse
  cases h : r ts <;> rfl

@[simp] theorem run_ite (c : Prop) [Decidable c] (r s : Reader α) (ts : List Token) :
    (if c then r else s) ts = if c then r ts else s ts := by
  split <;> rfl

@[simp] theorem run_tokenThat (p : Token → Bool) (t : Token) (ts : List Token) :
    tokenThat p (t :: ts) = if p t then some (t, ts) else none := rfl

@[simp] theorem run_peek (ts : List Token) : peek? ts = some (ts.head?, ts) := rfl

@[simp] theorem run_position (ts : List Token) : position ts = some (ts, ts) := rfl

@[simp] theorem run_isMark (m : String) (t : Token) (ts : List Token) :
    isMark m (t :: ts) = some (t.kind == .mark && t.text == m, t :: ts) := rfl

@[simp] theorem run_isWord (w : String) (t : Token) (ts : List Token) :
    isWord w (t :: ts) = some (t.kind == .word && t.text == w, t :: ts) := rfl

@[simp] theorem run_mark (m : String) (t : Token) (ts : List Token) :
    mark m (t :: ts) = if t.kind == .mark && t.text == m then some ((), ts) else none := by
  simp only [mark, run_bind, run_tokenThat]
  split <;> rfl

@[simp] theorem run_keyword (w : String) (t : Token) (ts : List Token) :
    keyword w (t :: ts) = if t.kind == .word && t.text == w then some ((), ts) else none := by
  simp only [keyword, run_bind, run_tokenThat]
  split <;> rfl

@[simp] theorem run_name (t : Token) (ts : List Token) :
    name (t :: ts) = if t.kind == .word then some (t.text, ts) else none := by
  simp only [name, run_bind, run_tokenThat]
  split <;> rfl

@[simp] theorem run_lifetime (t : Token) (ts : List Token) :
    lifetime (t :: ts) = if t.kind == .lifetime then some (t.text, ts) else none := by
  simp only [lifetime, run_bind, run_tokenThat]
  split <;> rfl

@[simp] theorem run_optional (r : Reader α) (ts : List Token) :
    optional r ts = some (match r ts with
      | some (a, rest) => (some a, rest)
      | none => (none, ts)) := by
  unfold optional
  cases r ts <;> rfl

@[simp] theorem run_onlyIf (c : Reader Bool) (r : Reader α) (ts : List Token) :
    onlyIf c r ts = (c ts).bind fun x => if x.1 then (r x.2).map fun y => (some y.1, y.2) else some (none, x.2) := by
  simp [onlyIf]

@[simp] theorem run_optionalMark (m : String) (t : Token) (ts : List Token) :
    optionalMark m (t :: ts) = some (if t.kind == .mark && t.text == m then (true, ts) else (false, t :: ts)) := by
  simp only [optionalMark, run_bind, run_isMark, Option.bind_some, run_ite, run_mark, run_pure]
  split <;> simp_all

@[simp] theorem run_optionalKeyword (w : String) (t : Token) (ts : List Token) :
    optionalKeyword w (t :: ts) = some (if t.kind == .word && t.text == w then (true, ts) else (false, t :: ts)) := by
  simp only [optionalKeyword, run_bind, run_isWord, Option.bind_some, run_ite, run_keyword, run_pure]
  split <;> simp_all

@[simp] theorem run_many (r : Reader α) (ts : List Token) : many r ts = some (repeated r ts) := rfl

@[simp] theorem run_withText (r : Reader α) (ts : List Token) :
    withText r ts = (r ts).map fun x => ((x.1, squashed (ts.take (ts.length - x.2.length))), x.2) := by
  unfold withText
  cases r ts <;> rfl

@[simp] theorem run_textOf (r : Reader α) (ts : List Token) :
    textOf r ts = (r ts).map fun x => (squashed (ts.take (ts.length - x.2.length)), x.2) := by
  simp only [textOf, run_bind, run_withText, run_pure]
  cases r ts <;> rfl

@[simp] theorem run_writtenText (r : Reader α) (ts : List Token) :
    writtenText r ts = (r ts).map fun x => (verbatim (ts.take (ts.length - x.2.length)), x.2) := by
  unfold writtenText
  cases r ts <;> rfl

end Steps

section Ahead

/-- One of the marks `ms` comes next. -/
def Starts (ms : List String) (rest : List Token) : Prop :=
  ∃ t after, rest = t :: after ∧ t.kind = .mark ∧ t.text ∈ ms

/-- None of the marks `ms` comes next. -/
def Clear (ms : List String) (rest : List Token) : Prop := ∀ t ∈ rest.head?, t.kind = .mark → t.text ∉ ms

variable {ms : List String} {m : String} {rest : List Token}

theorem Starts.clear {ns : List String} (h : Starts ms rest) (hdisjoint : ∀ m ∈ ms, m ∉ ns) : Clear ns rest := by
  obtain ⟨t, after, rfl, _, hmem⟩ := h
  intro u hu _
  obtain rfl : t = u := by simpa using hu
  exact hdisjoint t.text hmem

theorem Starts.mono {ns : List String} (h : Starts ms rest) (hsub : ∀ m ∈ ms, m ∈ ns) : Starts ns rest := by
  obtain ⟨t, after, rfl, hkind, hmem⟩ := h
  exact ⟨t, after, rfl, hkind, hsub t.text hmem⟩

theorem Clear.mono {ns : List String} (h : Clear ms rest) (hsub : ∀ m ∈ ns, m ∈ ms) : Clear ns rest :=
  fun t ht hkind hmem => h t ht hkind (hsub t.text hmem)

theorem Clear.isMark (h : Clear ms rest) (hm : m ∈ ms) : isMark m rest = some (false, rest) := by
  cases rest with
  | nil => rfl
  | cons t after =>
    have ht := h t rfl
    rw [run_isMark]
    simp only [Option.some.injEq, Prod.mk.injEq, and_true, Bool.and_eq_false_iff, beq_eq_false_iff_ne]
    by_cases hkind : t.kind = .mark
    · exact .inr fun heq => ht hkind (heq ▸ hm)
    · exact .inl hkind

theorem Clear.mark (h : Clear ms rest) (hm : m ∈ ms) : mark m rest = none := by
  cases rest with
  | nil => rfl
  | cons t after =>
    have hmark := h.isMark hm
    rw [run_isMark] at hmark
    rw [run_mark, if_neg]
    simpa using hmark

theorem Clear.optionalMark (h : Clear ms rest) (hm : m ∈ ms) : optionalMark m rest = some (false, rest) := by
  simp [Reader.optionalMark, h.isMark hm]

end Ahead

/-- A reader takes the tokens of the given shapes, whatever comes next with the property `next`. -/
def Takes {α : Type} (r : Reader α) (ss : List Shape) (next : List Token → Prop) : Prop :=
  ∀ ts rest, Fit ts ss → next rest → ∃ a, r (ts ++ rest) = some (a, rest)

theorem Takes.mono {α : Type} {r : Reader α} {ss : List Shape} {p q : List Token → Prop} (h : Takes r ss p)
    (hpq : ∀ rest, q rest → p rest) : Takes r ss q := fun ts rest hfit hrest => h ts rest hfit (hpq rest hrest)

section Repetition

variable {α : Type} {r : Reader α}

theorem repeated_none {ts : List Token} (h : r ts = none) : repeated r ts = ([], ts) := by
  rw [repeated, h]

theorem repeated_some {ts rest : List Token} {a : α} (h : r ts = some (a, rest)) (hless : rest.length < ts.length) :
    repeated r ts = (a :: (repeated r rest).1, (repeated r rest).2) := by
  rw [repeated, h]
  simp [hless]

theorem takes_many {items : List (List Shape)} {p : List Token → Prop}
    (hitems : ∀ ss ∈ items, ss ≠ [] ∧ Takes r ss p ∧ ∀ ts rest, Fit ts ss → p (ts ++ rest)) :
    Takes (many r) items.flatten fun rest => p rest ∧ r rest = none := by
  intro ts rest hfit hrest
  induction items generalizing ts with
  | nil =>
    obtain rfl := fit_nil.mp hfit
    exact ⟨[], by rw [run_many, List.nil_append, repeated_none hrest.2]⟩
  | cons ss items ih =>
    obtain ⟨⟨hne, htakes, _⟩, hitems⟩ := List.forall_mem_cons.mp hitems
    obtain ⟨front, back, hfront, hback, rfl⟩ := fit_append.mp hfit
    obtain ⟨as, has⟩ := ih hitems back hback
    have hnext : p (back ++ rest) := by
      cases items with
      | nil =>
        obtain rfl := fit_nil.mp hback
        exact hrest.1
      | cons us items =>
        obtain ⟨next, more, hfitnext, _, rfl⟩ := fit_append.mp hback
        rw [List.append_assoc]
        exact (List.forall_mem_cons.mp hitems).1.2.2 next _ hfitnext
    obtain ⟨a, ha⟩ := htakes front (back ++ rest) hfront hnext
    have hpos : 0 < front.length := by
      rw [hfront.length_eq]
      exact List.length_pos_iff.mpr hne
    have hmany : repeated r (back ++ rest) = (as, rest) := by simpa using has
    refine ⟨a :: as, ?_⟩
    rw [run_many, List.append_assoc, repeated_some ha (by simp [hpos]), hmany]

end Repetition

/-- Shapes with a shape between them. -/
def separatedBy (sep : Shape) : List (List Shape) → List Shape
  | [] => []
  | first :: more => first ++ more.flatMap (sep :: ·)

theorem length_le_separatedBy (sep : Shape) {items : List (List Shape)} {ss : List Shape} (h : ss ∈ items) :
    ss.length ≤ (separatedBy sep items).length := by
  cases items with
  | nil => cases h
  | cons first items =>
    rw [separatedBy, List.length_append]
    rcases List.mem_cons.mp h with rfl | h
    · exact Nat.le_add_right _ _
    · have hsub : (sep :: ss).length ≤ (items.flatMap (sep :: ·)).length :=
        (List.sublist_flatten_of_mem (List.mem_map_of_mem h)).length_le
      simp only [List.length_cons] at hsub
      omega

section Lists

variable {α : Type} {r : Reader α}

/-- More things, each behind the mark `m`. -/
theorem takes_more {m : String} {items : List (List Shape)} {p : List Token → Prop}
    (hitems : ∀ ss ∈ items, Takes r ss fun rest => Starts [m] rest ∨ p rest)
    (hend : ∀ rest, p rest → (do Reader.mark m; r) rest = none) :
    Takes (many do Reader.mark m; r) (items.flatMap (Shape.mark m :: ·)) p := by
  intro ts rest hfit hrest
  rw [List.flatMap_def] at hfit
  refine takes_many (p := fun rest => Starts [m] rest ∨ p rest) (fun us hus => ?_) ts rest hfit
    ⟨.inr hrest, hend rest hrest⟩
  obtain ⟨ss, hss, rfl⟩ := List.mem_map.mp hus
  refine ⟨by simp, fun ts rest hfit hrest => ?_, fun ts rest hfit => ?_⟩
  · obtain ⟨_, _, us, rfl, hus⟩ := fit_mark.mp hfit
    obtain ⟨a, ha⟩ := hitems ss hss us rest hus hrest
    exact ⟨a, by simp [ha]⟩
  · obtain ⟨_, _, us, rfl, _⟩ := fit_mark.mp hfit
    exact .inl ⟨_, us ++ rest, rfl, rfl, List.mem_singleton.mpr rfl⟩

private theorem starts_more {m : String} {items : List (List Shape)} {p : List Token → Prop} {ts rest : List Token}
    (hfit : Fit ts (items.flatMap (Shape.mark m :: ·))) (hrest : p rest) :
    Starts [m] (ts ++ rest) ∨ p (ts ++ rest) := by
  cases items with
  | nil =>
    obtain rfl := fit_nil.mp hfit
    exact .inr hrest
  | cons ss items =>
    obtain ⟨_, _, us, rfl, _⟩ := fit_mark.mp hfit
    exact .inl ⟨_, us ++ rest, rfl, rfl, List.mem_singleton.mpr rfl⟩

theorem takes_separated {m : String} {items : List (List Shape)} {p : List Token → Prop} (hne : items ≠ [])
    (hitems : ∀ ss ∈ items, Takes r ss fun rest => Starts [m] rest ∨ p rest)
    (hend : ∀ rest, p rest → (do Reader.mark m; r) rest = none) :
    Takes (separated m r) (separatedBy (.mark m) items) p := by
  intro ts rest hfit hrest
  cases items with
  | nil => exact absurd rfl hne
  | cons ss items =>
    obtain ⟨hfirst, hitems⟩ := List.forall_mem_cons.mp hitems
    obtain ⟨front, back, hfront, hback, rfl⟩ := fit_append.mp hfit
    obtain ⟨as, has⟩ := takes_more hitems hend back rest hback hrest
    obtain ⟨a, ha⟩ := hfirst front (back ++ rest) hfront (starts_more hback hrest)
    exact ⟨a :: as, by simp only [separated, run_bind, List.append_assoc, ha, Option.bind_some, has, run_pure]⟩

/-- The end of a list: its closing mark, perhaps behind a comma. -/
theorem takes_listEnd {close : String} (hclose : close ≠ ",") (as : List α) {comma : List Shape}
    (hcomma : comma = [] ∨ comma = [.mark ","]) :
    Takes (do let _ ← optionalMark ","; Reader.mark close; pure as) (comma ++ [.mark close]) fun _ => True := by
  intro ts rest hfit _
  rcases hcomma with rfl | rfl
  · obtain ⟨gap, commented, us, rfl, hus⟩ := fit_mark.mp hfit
    obtain rfl := fit_nil.mp hus
    exact ⟨as, by simp [hclose]⟩
  · obtain ⟨gap, commented, us, rfl, hus⟩ := fit_mark.mp hfit
    obtain ⟨gap', commented', vs, rfl, hvs⟩ := fit_mark.mp hus
    obtain rfl := fit_nil.mp hvs
    exact ⟨as, by simp⟩

/-- Things with commas between them, and perhaps one behind them, up to a closing mark. -/
theorem takes_listed1 {close : String} {items : List (List Shape)} (comma : List Shape) (hne : items ≠ [])
    (hitems : ∀ ss ∈ items, Takes r ss (Starts [",", close])) (hclose : close ≠ ",")
    (hcomma : comma = [] ∨ comma = [.mark ","] ∧ ∀ ts, Starts [close] ts → r ts = none) :
    Takes (listed1 close r) (separatedBy (.mark ",") items ++ (comma ++ [.mark close])) fun _ => True := by
  intro ts rest hfit _
  obtain ⟨front, back, hfront, hback, rfl⟩ := fit_append.mp hfit
  have hend : Starts [",", close] (back ++ rest) ∧ (do Reader.mark ","; r) (back ++ rest) = none := by
    rcases hcomma with rfl | ⟨rfl, hfail⟩
    · obtain ⟨gap, commented, us, rfl, _⟩ := fit_mark.mp hback
      exact ⟨⟨_, us ++ rest, rfl, rfl, by simp⟩, by simp [hclose]⟩
    · obtain ⟨gap, commented, us, rfl, hus⟩ := fit_mark.mp hback
      obtain ⟨gap', commented', vs, rfl, _⟩ := fit_mark.mp hus
      have hnone := hfail (⟨.mark, close, gap', commented'⟩ :: (vs ++ rest)) ⟨_, _, rfl, rfl, by simp⟩
      exact ⟨⟨_, _, rfl, rfl, by simp⟩, by simp [hnone]⟩
  obtain ⟨as, has⟩ := takes_separated (m := ",") (p := (· = back ++ rest)) hne
    (fun us hus => (hitems us hus).mono fun ts hts => hts.elim (·.mono (by simp)) (· ▸ hend.1)) (fun ts hts => hts ▸ hend.2)
    front (back ++ rest) hfront rfl
  obtain ⟨bs, hbs⟩ := takes_listEnd hclose as (hcomma.imp_right And.left) back rest hback trivial
  exact ⟨bs, by simpa only [listed1, run_bind, List.append_assoc, has, Option.bind_some] using hbs⟩

/-- Like `takes_listed1`, where there may be nothing. -/
theorem takes_listed {close : String} {items : List (List Shape)} (comma : List Shape)
    (hitems : ∀ ss ∈ items, Takes r ss (Starts [",", close])) (hclose : close ≠ ",")
    (hcomma : comma = [] ∨ items ≠ [] ∧ comma = [.mark ","]) (hfail : ∀ ts, Starts [close] ts → r ts = none) :
    Takes (listed close r) (separatedBy (.mark ",") items ++ (comma ++ [.mark close])) fun _ => True := by
  intro ts rest hfit _
  by_cases hne : items = []
  · subst hne
    obtain rfl : comma = [] := hcomma.resolve_right fun h => h.1 rfl
    obtain ⟨gap, commented, us, rfl, hus⟩ := fit_mark.mp hfit
    obtain rfl := fit_nil.mp hus
    exact ⟨[], by simp [listed]⟩
  · obtain ⟨as, has⟩ := takes_listed1 comma hne hitems hclose (hcomma.imp_right fun h => ⟨h.2, hfail⟩) ts rest hfit trivial
    -- a list does not begin with its closing mark, where nothing can be read
    have hfirst : optionalMark close (ts ++ rest) = some (false, ts ++ rest) := by
      cases hts : ts ++ rest with
      | nil => rfl
      | cons t more =>
        rw [run_optionalMark]
        split
        · rename_i hmark
          rw [hts] at has
          have hnone := hfail (t :: more) ⟨t, more, rfl, by simpa using hmark⟩
          simp [listed1, separated, hnone] at has
        · rfl
    exact ⟨as, by simpa [listed, hfirst, listed1] using has⟩

end Lists

end TraitMock.Syntax.Reader
