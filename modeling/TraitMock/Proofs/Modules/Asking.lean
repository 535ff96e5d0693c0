import TraitMock.Modules.Scope

namespace TraitMock

open Files (Tree)

variable {α β : Type}

/-- What comes of something that is asked of a resolver, with the resolver that is left. -/
def outcome (m : Resolving α) (r : Resolver) : Except GenerationError α × Resolver := m.run.run r

/-- What is asked of a resolver succeeds, with what it gives and the resolver that is left. -/
def Gives (m : Resolving α) (r : Resolver) (a : α) (r' : Resolver) : Prop := outcome m r = (.ok a, r')

section Gives

variable {m : Resolving α} {f : α → Resolving β} {r r' : Resolver}

theorem Gives.unique {a b : α} {r₁ r₂ : Resolver} (h₁ : Gives m r a r₁) (h₂ : Gives m r b r₂) : a = b ∧ r₁ = r₂ := by
  have heq : ((.ok a : Except GenerationError α), r₁) = (.ok b, r₂) := h₁.symm.trans h₂
  simpa using heq

theorem gives_pure {a b : α} : Gives (pure a) r b r' ↔ b = a ∧ r' = r := by
  have heq : Gives (pure a) r b r' ↔ ((.ok a : Except GenerationError α), r) = (.ok b, r') := Iff.rfl
  rw [heq]
  simp [eq_comm]

theorem not_gives_throw {e : GenerationError} {a : α} : ¬Gives (throw e) r a r' := by
  intro h
  have heq : ((.error e : Except GenerationError α), r) = (.ok a, r') := h
  simp at heq

/-- A step that other steps follow: it fails, or they start from what it leaves. -/
theorem outcome_bind (m : Resolving α) (f : α → Resolving β) (r : Resolver) :
    outcome (m >>= f) r =
      match outcome m r with
      | (.ok a, r₁) => outcome (f a) r₁
      | (.error e, r₁) => (.error e, r₁) := by
  have hbind : outcome (m >>= f) r = (ExceptT.bindCont f (outcome m r).1).run (outcome m r).2 := rfl
  rw [hbind]
  rcases outcome m r with ⟨_ | _, _⟩ <;> rfl

theorem outcome_get_bind (f : Resolver → Resolving β) (r : Resolver) : outcome (get >>= f) r = outcome (f r) r := by
  have hget : outcome get r = (.ok r, r) := rfl
  rw [outcome_bind, hget]

theorem gives_bind {b : β} : Gives (m >>= f) r b r' ↔ ∃ a r₁, Gives m r a r₁ ∧ Gives (f a) r₁ b r' := by
  unfold Gives
  rw [outcome_bind]
  constructor
  · intro h
    rcases hm : outcome m r with ⟨_ | a, r₁⟩
    · simp [hm] at h
    · exact ⟨a, r₁, rfl, by simpa [hm] using h⟩
  · rintro ⟨a, r₁, hm, hf⟩
    rw [hm]
    exact hf

theorem gives_get {r₁ : Resolver} : Gives get r r₁ r' ↔ r₁ = r ∧ r' = r := by
  have heq : Gives get r r₁ r' ↔ ((.ok r : Except GenerationError Resolver), r) = (.ok r₁, r') := Iff.rfl
  rw [heq]
  simp [eq_comm]

theorem exists_gives {g : α → β} {b : β} (h : (outcome m r).1.toOption.map g = some b) :
    ∃ a r', Gives m r a r' ∧ g a = b := by
  rcases hrun : outcome m r with ⟨_ | a, r'⟩
  · rw [hrun] at h
    cases h
  · rw [hrun] at h
    exact ⟨a, r', hrun, Option.some.inj h⟩

end Gives

/-- What happens to a resolver that is asked about the crate with the given root: what it remembers of the crate
    stays, and all that it remembers lies in known files if it did so before. -/
structure Later (root : Path) (known : Path → Prop) (r r' : Resolver) : Prop where
  kept : ∀ text p, r.found.lookup text = some p → p.crateRoot.same root = true → r'.found.lookup text = some p
  known : (∀ x ∈ r.found, known x.2.file) → ∀ x ∈ r'.found, known x.2.file

/-- A module of the crate with the given root, in a known file. -/
structure Belongs (root : Path) (known : Path → Prop) (p : Package) : Prop where
  crateRoot : p.crateRoot.same root = true
  known : known p.file

/-- Something that asks a resolver about a crate, and what it gives if it succeeds. -/
def Respects (root : Path) (known : Path → Prop) (m : Resolving α) (post : α → Prop) : Prop :=
  ∀ r, (∀ x ∈ r.found, known x.2.file) →
    Later root known r (outcome m r).2 ∧ ∀ a, (outcome m r).1 = .ok a → post a

section Respects

variable {root : Path} {known : Path → Prop}

theorem Later.refl (r : Resolver) : Later root known r r := ⟨fun _ _ h _ => h, fun h => h⟩

theorem Later.trans {r r₁ r₂ : Resolver} (h : Later root known r r₁) (h' : Later root known r₁ r₂) :
    Later root known r r₂ where
  kept text p hp hroot := h'.kept text p (h.kept text p hp hroot) hroot
  known hknown := h'.known (h.known hknown)

theorem Respects.gives {m : Resolving α} {post : α → Prop} {r r' : Resolver} {a : α} (h : Respects root known m post)
    (hknown : ∀ x ∈ r.found, known x.2.file) (hgives : Gives m r a r') : Later root known r r' ∧ post a := by
  obtain ⟨hlater, hpost⟩ := h r hknown
  rw [Gives] at hgives
  rw [hgives] at hlater hpost
  exact ⟨hlater, hpost a rfl⟩

theorem respects_pure {a : α} {post : α → Prop} (h : post a) : Respects root known (pure a) post :=
  fun r _ => ⟨.refl r, fun _ heq => Except.ok.inj heq ▸ h⟩

theorem respects_throw {e : GenerationError} {post : α → Prop} : Respects root known (throw e : Resolving α) post := by
  refine fun r _ => ⟨.refl r, fun a heq => ?_⟩
  have hcontra : (.error e : Except GenerationError α) = .ok a := heq
  cases hcontra

theorem Respects.bind {m : Resolving α} {f : α → Resolving β} {P : α → Prop} {Q : β → Prop}
    (hm : Respects root known m P) (hf : ∀ a, P a → Respects root known (f a) Q) :
    Respects root known (m >>= f) Q := by
  intro r hknown
  obtain ⟨hlater, hpost⟩ := hm r hknown
  rw [outcome_bind]
  rcases hrun : outcome m r with ⟨e | a, r₁⟩
  · rw [hrun] at hlater
    exact ⟨hlater, fun _ heq => by cases heq⟩
  · rw [hrun] at hlater hpost
    obtain ⟨hlater', hpost'⟩ := hf a (hpost a rfl) r₁ (hlater.known hknown)
    exact ⟨hlater.trans hlater', hpost'⟩

/-- What is caught leaves the resolver as it was then. -/
theorem outcome_tryCatch (m : Resolving α) (handle : GenerationError → Resolving α) (r : Resolver) :
    outcome (tryCatch m handle) r =
      match outcome m r with
      | (.ok a, r₁) => (.ok a, r₁)
      | (.error e, r₁) => outcome (handle e) r₁ := by
  rcases hm : outcome m r with ⟨_ | _, _⟩
  all_goals
    rw [outcome] at hm
    rw [outcome, ExceptT.run_tryCatch, StateT.run_bind, hm]
    rfl

theorem Respects.tryCatch {m : Resolving α} {handle : GenerationError → Resolving α} {P : α → Prop}
    (hm : Respects root known m P) (hhandle : ∀ e, Respects root known (handle e) P) :
    Respects root known (tryCatch m handle) P := by
  intro r hknown
  obtain ⟨hlater, hpost⟩ := hm r hknown
  rw [outcome_tryCatch]
  rcases hrun : outcome m r with ⟨e | a, r₁⟩
  · rw [hrun] at hlater
    obtain ⟨hlater', hpost'⟩ := hhandle e r₁ (hlater.known hknown)
    exact ⟨hlater.trans hlater', hpost'⟩
  · rw [hrun] at hlater hpost
    exact ⟨hlater, hpost⟩

private theorem respects_mapM {f : α → Resolving β} {P : β → Prop} (hf : ∀ a, Respects root known (f a) P) (l : List α) :
    Respects root known (l.mapM f) fun bs => ∀ b ∈ bs, P b := by
  induction l with
  | nil => exact respects_pure fun _ h => absurd h List.not_mem_nil
  | cons a rest ih =>
    rw [List.mapM_cons]
    refine (hf a).bind fun b hb => ih.bind fun bs hbs => respects_pure ?_
    simpa using ⟨hb, hbs⟩

end Respects

theorem Path.same_iff {p q : Path} : p.same q = true ↔ p.steps = q.steps := by simp [same]

namespace Resolver

variable {files : Tree} {root : Path} {known : Path → Prop} {base p : Package} {path : List String} {r r' : Resolver}

/-- The module path that a module is remembered under. -/
def specFrom (base : Package) (path : List String) : String := Text.joinPath (base.crateName :: path)

/-- A module that is remembered for the crate is found again. -/
theorem gives_moduleIn_of_lookup (h : r.found.lookup (specFrom base path) = some p)
    (hroot : p.crateRoot.same base.crateRoot = true) : Gives (moduleIn files base path) r p r := by
  unfold moduleIn
  refine gives_bind.mpr ⟨r, r, gives_get.mpr ⟨rfl, rfl⟩, ?_⟩
  rw [show Text.joinPath (base.crateName :: path) = specFrom base path from rfl, h]
  simp only [hroot, if_true]
  exact gives_pure.mpr ⟨rfl, rfl⟩

/-- A module that is not remembered for the crate is looked for. -/
theorem outcome_moduleIn_of_new
    (hnew : ∀ p, r.found.lookup (specFrom base path) = some p → p.crateRoot.same base.crateRoot = false) :
    outcome (moduleIn files base path) r = outcome (moduleIn.look files base path (specFrom base path)) r := by
  unfold moduleIn
  rw [outcome_get_bind]
  split
  · rename_i p hlookup
    rw [if_neg (by simp [hnew p hlookup])]
    rfl
  · rfl

/-- How a module of a crate is found: it is remembered, or the declarations lead to it and it is remembered then. -/
theorem outcome_moduleIn (files : Tree) (base : Package) (path : List String) (r : Resolver) :
    (∃ p, r.found.lookup (specFrom base path) = some p ∧ p.crateRoot.same base.crateRoot = true ∧
        outcome (moduleIn files base path) r = (.ok p, r)) ∨
      ((∀ p, r.found.lookup (specFrom base path) = some p → p.crateRoot.same base.crateRoot = false) ∧
        ((∃ e, outcome (moduleIn files base path) r = (.error e, r)) ∨
          ∃ file, outcome (moduleIn files base path) r =
            (.ok { base with modulePath := path, file := files.canonicalOr file },
              { r with found := (specFrom base path,
                { base with modulePath := path, file := files.canonicalOr file }) :: r.found }))) := by
  by_cases hremembered : ∃ p, r.found.lookup (specFrom base path) = some p ∧
      p.crateRoot.same base.crateRoot = true
  · obtain ⟨p, hp, hroot⟩ := hremembered
    exact .inl ⟨p, hp, hroot, gives_moduleIn_of_lookup hp hroot⟩
  · have hnone : ∀ p, r.found.lookup (specFrom base path) = some p → p.crateRoot.same base.crateRoot = false :=
      fun p hp => by simpa using fun hroot => hremembered ⟨p, hp, hroot⟩
    refine .inr ⟨hnone, ?_⟩
    rw [outcome_moduleIn_of_new hnone, moduleIn.look]
    cases descend files (specFrom base path) base.crateRoot path with
    | error e => exact .inl ⟨e, rfl⟩
    | ok file => exact .inr ⟨file, rfl⟩

/-- A crate is asked for one of its modules. -/
theorem respects_moduleIn (hcanonical : ∀ q, known (files.canonicalOr q)) (hbase : Belongs root known base)
    (path : List String) : Respects root known (moduleIn files base path) (Belongs root known) := by
  intro r hknown
  have hsame := Path.same_iff.mp hbase.crateRoot
  rcases outcome_moduleIn files base path r with ⟨p, hp, hroot, hrun⟩ | ⟨hnone, ⟨e, hrun⟩ | ⟨file, hrun⟩⟩
  · rw [hrun]
    refine ⟨.refl r, fun q hq => ?_⟩
    obtain rfl := Except.ok.inj hq
    refine ⟨Path.same_iff.mpr ((Path.same_iff.mp hroot).trans hsame), ?_⟩
    obtain ⟨l, k, hfound, _⟩ := List.lookup_eq_some_iff.mp hp
    exact hknown (specFrom base path, p) (by rw [hfound]; simp)
  · rw [hrun]
    exact ⟨.refl r, fun _ hq => by cases hq⟩
  · rw [hrun]
    refine ⟨⟨fun text q hq hroot => ?_, fun _ x hx => ?_⟩, fun q hq => ?_⟩
    · -- an entry that is put aside belongs to another crate
      have hother : text ≠ specFrom base path := by
        rintro rfl
        have hsame' : q.crateRoot.same base.crateRoot = true :=
          Path.same_iff.mpr ((Path.same_iff.mp hroot).trans hsame.symm)
        rw [hnone q hq] at hsame'
        cases hsame'
      rw [List.lookup_cons, beq_eq_false_iff_ne.mpr hother]
      exact hq
    · rcases List.mem_cons.mp hx with rfl | hx
      · exact hcanonical file
      · exact hknown x hx
    · obtain rfl := Except.ok.inj hq
      exact ⟨hbase.crateRoot, hcanonical file⟩

/-- A question about a crate that was answered is answered in the same way later on, from memory. -/
theorem gives_moduleIn_later (hbase : base.crateRoot.same root = true) (h : Gives (moduleIn files base path) r p r')
    {r'' : Resolver} (hlater : Later root known r' r'') : Gives (moduleIn files base path) r'' p r'' := by
  have hsame := Path.same_iff.mp hbase
  have hlookup : r'.found.lookup (specFrom base path) = some p ∧ p.crateRoot.same base.crateRoot = true := by
    rw [Gives] at h
    rcases outcome_moduleIn files base path r with ⟨q, hq, hroot, hrun⟩ | ⟨_, ⟨e, hrun⟩ | ⟨file, hrun⟩⟩
    · obtain ⟨rfl, rfl⟩ : q = p ∧ r = r' := by simpa using hrun.symm.trans h
      exact ⟨hq, hroot⟩
    · simp [hrun] at h
    · obtain ⟨rfl, rfl⟩ := by simpa using hrun.symm.trans h
      exact ⟨by simp, Path.same_iff.mpr rfl⟩
  obtain ⟨hp, hroot⟩ := hlookup
  have hcrate : p.crateRoot.same root = true := Path.same_iff.mpr ((Path.same_iff.mp hroot).trans hsame)
  exact gives_moduleIn_of_lookup (hlater.kept _ p hp hcrate) hroot

end Resolver

namespace Modules.Scope

variable {files : Tree} {root : Path} {known : Path → Prop}

private theorem respects_glob? (hcanonical : ∀ q, known (files.canonicalOr q)) {s : Scope}
    (hs : Belongs root known s.package) (path : String) :
    Respects root known (s.glob? files path) fun g? => ∀ g ∈ g?, Belongs root known g.1 := by
  unfold glob?
  split
  · exact respects_throw
  · exact respects_pure fun _ h => by simp at h
  · refine Respects.tryCatch ?_ fun _ => respects_pure fun _ h => by simp at h
    refine (Resolver.respects_moduleIn hcanonical hs _).bind fun m hm => ?_
    split
    · exact respects_pure fun g hg => by simpa [← Option.mem_some_iff.mp hg] using hm
    · exact respects_throw

/-- What the names of a module are read from, and where the modules lie all of whose items it imports. -/
structure ReadFrom (files : Tree) (root : Path) (known : Path → Prop) (p : Package) (s : Scope) : Prop where
  package : s.package = p
  source : Source.read files p.file = .ok s.source
  globs : ∀ g ∈ s.globs, Belongs root known g.1

theorem respects_load (hcanonical : ∀ q, known (files.canonicalOr q)) {p : Package} (hp : Belongs root known p) :
    Respects root known (load files p) (ReadFrom files root known p) := by
  unfold load
  split
  · exact respects_throw
  · rename_i source hsource
    refine (respects_mapM (respects_glob? hcanonical hp) _).bind fun globs hglobs => respects_pure ?_
    refine ⟨rfl, hsource, fun g hg => ?_⟩
    obtain ⟨g?, hmem, hsome⟩ := List.mem_filterMap.mp hg
    exact hglobs g? hmem g hsome

end Modules.Scope

end TraitMock
