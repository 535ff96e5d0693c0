import TraitMock.Proofs.Syntax.ImportTrees

namespace TraitMock.Syntax

section Written

/-- What says who may see an item, or nothing. -/
inductive IsVisibility : List Shape → Prop where
  | inherited : IsVisibility []
  | everywhere : IsVisibility [.word "pub"]
  | within {w : String} (hw : w ∈ pathWords) : IsVisibility [.word "pub", .mark "(", .word w, .mark ")"]
  | below (front : ImportPath) (last : String) :
    IsVisibility (.word "pub" :: .mark "(" :: .word "in" :: (front.leading ++ [.word last] ++ [.mark ")"]))

/-- The tokens are those of a declaration that imports a tree. -/
def DeclWritten (t : ImportExpr) (ts : List Token) : Prop :=
  ∃ ss visible start tree stop, ts = visible ++ (start ++ (tree ++ stop)) ∧ IsVisibility ss ∧ Fit visible ss ∧
    Fit start [.word "use"] ∧ t.Written tree ∧ Fit stop [.mark ";"]

/-- The tokens are those of a file with some declarations that import trees, and other items among them. -/
inductive FileWritten : List ImportExpr → List Token → Prop where
  | done : FileWritten [] []
  | decl {t : ImportExpr} {trees : List ImportExpr} {ts rest : List Token} (ht : t.IsValid [])
    (hdecl : DeclWritten t ts) (hrest : FileWritten trees rest) : FileWritten (t :: trees) (ts ++ rest)
  | other {trees : List ImportExpr} {ts rest : List Token} {e : Entry} (hentry : Reader.entry ts = some (e, rest))
    (hless : rest.length < ts.length) (hitem : ∀ tree, e.item ≠ .importDecl tree) (hrest : FileWritten trees rest) :
    FileWritten trees ts

/-- The tree that an item imports, if it is an import. -/
def Entry.importTree? (e : Entry) : Option UseTree :=
  match e.item with
  | .importDecl tree => some tree
  | _ => none

theorem Entry.importTree?_eq_none {e : Entry} (h : ∀ tree, e.item ≠ .importDecl tree) : e.importTree? = none := by
  unfold Entry.importTree?
  split
  · rename_i tree htree
    exact absurd htree (h tree)
  · rfl

end Written

namespace Reader

private theorem takes_visibility {ss : List Shape} (h : IsVisibility ss) :
    Takes visibility ss fun rest => ∃ gap commented after, rest = ⟨.word, "use", gap, commented⟩ :: after := by
  rintro ts rest hfit ⟨gap, commented, after, rfl⟩
  refine ⟨(), ?_⟩
  cases h with
  | inherited =>
    obtain rfl := fit_nil.mp hfit
    simp [visibility]
  | everywhere =>
    obtain ⟨gap', commented', us, rfl, hus⟩ := fit_word.mp hfit
    obtain rfl := fit_nil.mp hus
    simp [visibility]
  | @within w hw =>
    obtain ⟨gap₁, commented₁, us, rfl, hus⟩ := fit_word.mp hfit
    obtain ⟨gap₂, commented₂, vs, rfl, hvs⟩ := fit_mark.mp hus
    obtain ⟨gap₃, commented₃, ws, rfl, hws⟩ := fit_word.mp hvs
    obtain ⟨gap₄, commented₄, xs, rfl, hxs⟩ := fit_mark.mp hws
    obtain rfl := fit_nil.mp hxs
    have hin : w ≠ "in" := by
      rintro rfl
      revert hw
      decide
    simp [visibility, hin, hw]
  | below front last =>
    obtain ⟨gap₁, commented₁, us, rfl, hus⟩ := fit_word.mp hfit
    obtain ⟨gap₂, commented₂, vs, rfl, hvs⟩ := fit_mark.mp hus
    obtain ⟨gap₃, commented₃, ws, rfl, hws⟩ := fit_word.mp hvs
    obtain ⟨path, close, hpath, hclose, rfl⟩ := fit_append.mp hws
    obtain ⟨gap₄, commented₄, xs, rfl, hxs⟩ := fit_mark.mp hclose
    obtain rfl := fit_nil.mp hxs
    have hread := usePath_eq (⟨.mark, ")", gap₄, commented₄⟩ :: ⟨.word, "use", gap, commented⟩ :: after) hpath
      (by simp)
    simp [visibility, hread]

theorem exists_word {ss : List Shape} (h : IsVisibility ss) {visible start : List Token} (hvisible : Fit visible ss)
    (hstart : Fit start [.word "use"]) (rest : List Token) :
    ∃ w gap commented more, visible ++ (start ++ rest) = ⟨.word, w, gap, commented⟩ :: more := by
  cases h with
  | inherited =>
    obtain rfl := fit_nil.mp hvisible
    obtain ⟨gap, commented, us, rfl, -⟩ := fit_word.mp hstart
    exact ⟨_, _, _, _, rfl⟩
  | everywhere =>
    obtain ⟨gap, commented, us, rfl, -⟩ := fit_word.mp hvisible
    exact ⟨_, _, _, _, rfl⟩
  | within =>
    obtain ⟨gap, commented, us, rfl, -⟩ := fit_word.mp hvisible
    exact ⟨_, _, _, _, rfl⟩
  | below =>
    obtain ⟨gap, commented, us, rfl, -⟩ := fit_word.mp hvisible
    exact ⟨_, _, _, _, rfl⟩

/-- A declaration behind its visibility is read as the tree that it imports. -/
theorem keywordItem_written {t : ImportExpr} {start tree stop : List Token} (rest : List Token) (ht : t.IsValid [])
    (hstart : Fit start [.word "use"]) (htree : t.Written tree) (hstop : Fit stop [.mark ";"]) (n : Nat) :
    keywordItem (n + 1) (start ++ (tree ++ (stop ++ rest))) = some (.importDecl t.tree, rest) := by
  obtain ⟨gap, commented, us, rfl, hus⟩ := fit_word.mp hstart
  obtain rfl := fit_nil.mp hus
  obtain ⟨gap', commented', vs, rfl, hvs⟩ := fit_mark.mp hstop
  obtain rfl := fit_nil.mp hvs
  have hread : deep useTree (tree ++ ⟨.mark, ";", gap', commented'⟩ :: rest) =
      some (t.tree, ⟨.mark, ";", gap', commented'⟩ :: rest) := by
    refine useTree_written t [] tree _ _ ht htree ?_ ⟨_, _, rfl, rfl, by simp⟩
    simp only [depth, List.length_append, List.length_cons]
    omega
  rw [keywordItem]
  simp [hread]

/-- A declaration is read as the tree that it imports. -/
theorem entry_written {t : ImportExpr} {ts : List Token} (rest : List Token) (ht : t.IsValid [])
    (h : DeclWritten t ts) : ∃ commented, entry (ts ++ rest) = some (⟨commented, .importDecl t.tree⟩, rest) := by
  obtain ⟨ss, visible, start, tree, stop, rfl, hss, hvisible, hstart, htree, hstop⟩ := h
  have hkeyword := keywordItem_written rest ht hstart htree hstop
  obtain ⟨w, gap, commented, more, hmore⟩ := exists_word hss hvisible hstart (tree ++ (stop ++ rest))
  obtain ⟨a, hvisibility⟩ := takes_visibility hss visible (start ++ (tree ++ (stop ++ rest))) hvisible (by
    obtain ⟨gap, commented, us, rfl, hus⟩ := fit_word.mp hstart
    exact ⟨_, _, _, rfl⟩)
  have hwhole : visible ++ (start ++ (tree ++ stop)) ++ rest = visible ++ (start ++ (tree ++ (stop ++ rest))) := by simp
  rw [hwhole]
  generalize visible ++ (start ++ (tree ++ (stop ++ rest))) = whole at hmore hvisibility
  subst hmore
  have hitem : deep item (⟨.word, w, gap, commented⟩ :: more) = some (.importDecl t.tree, rest) := by
    obtain ⟨n, hn⟩ : ∃ n, depth (⟨.word, w, gap, commented⟩ :: more) = n + 1 + 1 := ⟨_, rfl⟩
    rw [deep, hn, item]
    simp [hvisibility, hkeyword]
  exact ⟨commented, by simp [entry, hitem]⟩

theorem entry_nil : entry [] = none := Option.isNone_iff_eq_none.mp (by decide +kernel)

/-- Items are read one after the other, up to the end of the file. -/
theorem repeated_entry_written {trees : List ImportExpr} {ts : List Token} (h : FileWritten trees ts) :
    ∃ entries, repeated entry ts = (entries, []) ∧ entries.filterMap Entry.importTree? = treesOf trees := by
  induction h with
  | done => exact ⟨[], repeated_none entry_nil, rfl⟩
  | @decl t trees ts rest ht hdecl _ ih =>
    obtain ⟨entries, hentries, htrees⟩ := ih
    obtain ⟨commented, hentry⟩ := entry_written rest ht hdecl
    have hless : rest.length < (ts ++ rest).length := by
      obtain ⟨ss, visible, start, tree, stop, rfl, -, -, hstart, -, -⟩ := hdecl
      have hlength := hstart.length_eq
      simp only [List.length_append, List.length_cons, List.length_nil] at hlength ⊢
      omega
    refine ⟨_, (repeated_some hentry hless).trans (by rw [hentries]), ?_⟩
    have htree : Entry.importTree? ⟨commented, .importDecl t.tree⟩ = some t.tree := rfl
    rw [List.filterMap_cons_some htree, htrees, treesOf]
  | @other trees ts rest e hentry hless hitem _ ih =>
    obtain ⟨entries, hentries, htrees⟩ := ih
    refine ⟨_, (repeated_some hentry hless).trans (by rw [hentries]), ?_⟩
    rw [List.filterMap_cons_none (Entry.importTree?_eq_none hitem), htrees]

end Reader

/-- The imports of a file are read as what is written. -/
theorem parse_written {source : String} {ts : List Token} {trees : List ImportExpr} (htokens : tokens source = some ts)
    (h : FileWritten trees ts) : ∃ entries, parse source = some entries ∧
      entries.filterMap Entry.importTree? = treesOf trees := by
  obtain ⟨entries, hentries, htrees⟩ := Reader.repeated_entry_written h
  refine ⟨entries, ?_, htrees⟩
  simp [parse, htokens, Reader.file, hentries, Reader.atEnd]

end TraitMock.Syntax
