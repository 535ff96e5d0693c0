import TraitMock.Proofs.Syntax.Attributes

namespace TraitMock.Syntax

/-- Entries are read one after the other, up to what is left. -/
inductive ReadsEntries : List Token → List Entry → List Token → Prop where
  | done (ts : List Token) : ReadsEntries ts [] ts
  | entry {ts mid rest : List Token} {e : Entry} {es : List Entry} (hread : Reader.entry ts = some (e, mid))
    (hless : mid.length < ts.length) (hrest : ReadsEntries mid es rest) : ReadsEntries ts (e :: es) rest

namespace ReadsEntries

variable {ts mid rest : List Token} {es more : List Entry}

theorem append (h : ReadsEntries ts es mid) (hmore : ReadsEntries mid more rest) :
    ReadsEntries ts (es ++ more) rest := by
  induction h with
  | done => exact hmore
  | entry hread hless _ ih => exact .entry hread hless (ih hmore)

theorem of_append (h : ReadsEntries ts (es ++ more) rest) :
    ∃ mid, ReadsEntries ts es mid ∧ ReadsEntries mid more rest := by
  induction es generalizing ts with
  | nil => exact ⟨ts, .done ts, h⟩
  | cons e es ih =>
    rw [List.cons_append] at h
    cases h with
    | entry hread hless hrest =>
      obtain ⟨mid, hes, hmore⟩ := ih hrest
      exact ⟨mid, .entry hread hless hes, hmore⟩

private theorem repeated_eq (h : ReadsEntries ts es []) : Reader.repeated Reader.entry ts = (es, []) := by
  generalize hrest : ([] : List Token) = rest at h
  induction h with
  | done ts =>
    subst hrest
    exact Reader.repeated_none Reader.entry_nil
  | entry hread hless _ ih => rw [Reader.repeated_some hread hless, ih hrest]

private theorem of_repeated (ts : List Token) :
    ReadsEntries ts (Reader.repeated Reader.entry ts).1 (Reader.repeated Reader.entry ts).2 := by
  fun_induction Reader.repeated Reader.entry ts with
  | case1 ts _ => exact .done ts
  | case2 ts e mid hread hless more ih => exact .entry hread hless ih
  | case3 ts e mid _ _ => exact .done ts

/-- Attributes are read as their entries. -/
theorem attributes (as : List WrittenAttribute) (rest : List Token) :
    ReadsEntries (as.flatMap (·.tokens) ++ rest) (as.map (·.entry)) rest := by
  induction as with
  | nil => exact .done rest
  | cons a as ih =>
    rw [List.flatMap_cons, List.append_assoc, List.map_cons]
    refine .entry (Reader.entry_attribute a _) ?_ ih
    obtain ⟨gap, more, htokens⟩ := a.exists_tokens
    simp only [htokens, List.length_append, List.length_cons]
    omega

/-- Only attributes are read as entries that are attributes. -/
theorem exists_attributes (h : ReadsEntries ts es rest) (hes : ∀ e ∈ es, ∃ text, e.item = .attribute text) :
    ∃ as : List WrittenAttribute, ts = as.flatMap (·.tokens) ++ rest ∧ es = as.map (·.entry) := by
  induction h with
  | done ts => exact ⟨[], rfl, rfl⟩
  | entry hread _ _ ih =>
    obtain ⟨⟨text, hitem⟩, hmore⟩ := List.forall_mem_cons.mp hes
    obtain ⟨a, rfl, rfl⟩ := Reader.eq_of_entry hread hitem
    obtain ⟨as, rfl, rfl⟩ := ih hmore
    exact ⟨a :: as, by rw [List.flatMap_cons, List.append_assoc], rfl⟩

end ReadsEntries

/-- A source text is well-formed exactly if entries are read from its tokens up to their end. -/
theorem parse_eq_some_iff {source : String} {es : List Entry} :
    parse source = some es ↔ ∃ ts, tokens source = some ts ∧ ReadsEntries ts es [] := by
  constructor
  · intro h
    obtain ⟨ts, htokens, hfile⟩ := Option.bind_eq_some_iff.mp h
    obtain ⟨⟨entries, left⟩, hread, hresult⟩ := Option.bind_eq_some_iff.mp hfile
    obtain rfl : entries = es := Option.some.inj hresult
    simp only [Reader.file, Reader.run_bind, Reader.run_many, Option.bind_some, Reader.atEnd] at hread
    have hentries := ReadsEntries.of_repeated ts
    rcases hrepeated : Reader.repeated Reader.entry ts with ⟨entries', left'⟩
    rw [hrepeated] at hread hentries
    cases left' with
    | nil =>
      obtain ⟨rfl, -⟩ := Prod.mk.inj (Option.some.inj hread)
      exact ⟨ts, htokens, hentries⟩
    | cons t left' => cases hread
  · rintro ⟨ts, htokens, hentries⟩
    simp [parse, htokens, Reader.file, hentries.repeated_eq, Reader.atEnd]

end TraitMock.Syntax
