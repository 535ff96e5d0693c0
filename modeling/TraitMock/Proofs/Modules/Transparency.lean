import TraitMock.Proofs.Modules.Asking

namespace TraitMock

open Files (Tree)
open Manifest (Target)

variable {α β : Type}

/-- Something that asks a resolver gives the same in all resolvers of which `P` holds, adds nothing to what they
    remember, and leaves resolvers of which `Q` holds. -/
def Steady (P Q : Resolver → Prop) (m : Resolving α) : Prop :=
  ∃ a, ∀ r, P r → ∃ r', outcome m r = (a, r') ∧ Q r' ∧ r'.found = r.found

section Steady

variable {P Q S : Resolver → Prop}

theorem steady_pure {a : α} : Steady P P (pure a) := ⟨.ok a, fun r hr => ⟨r, rfl, hr, rfl⟩⟩

theorem steady_throw {e : GenerationError} : Steady P P (throw e : Resolving α) :=
  ⟨.error e, fun r hr => ⟨r, rfl, hr, rfl⟩⟩

theorem Steady.mono {m : Resolving α} (hm : Steady P Q m) (h : ∀ r, Q r → S r) : Steady P S m := by
  obtain ⟨a, hm⟩ := hm
  refine ⟨a, fun r hr => ?_⟩
  obtain ⟨r', hrun, hr', hfound⟩ := hm r hr
  exact ⟨r', hrun, h r' hr', hfound⟩

theorem Steady.bind {m : Resolving α} {f : α → Resolving β} (hm : Steady P Q m) (hf : ∀ a, Steady Q Q (f a)) :
    Steady P Q (m >>= f) := by
  obtain ⟨a, hm⟩ := hm
  cases a with
  | error e =>
    refine ⟨.error e, fun r hr => ?_⟩
    obtain ⟨r', hrun, hr', hfound⟩ := hm r hr
    exact ⟨r', by rw [outcome_bind, hrun], hr', hfound⟩
  | ok a =>
    obtain ⟨b, hf⟩ := hf a
    refine ⟨b, fun r hr => ?_⟩
    obtain ⟨r₁, hrun, hr₁, hfound⟩ := hm r hr
    obtain ⟨r₂, hrun', hr₂, hfound'⟩ := hf r₁ hr₁
    exact ⟨r₂, by rw [outcome_bind, hrun]; exact hrun', hr₂, hfound'.trans hfound⟩

theorem Steady.ite_bind {m₁ m₂ : Resolving α} {f : α → Resolving β} {c : Prop} [Decidable c] (h₁ : Steady P Q m₁)
    (h₂ : Steady P Q m₂) (hf : ∀ a, Steady Q Q (f a)) : Steady P Q (if c then m₁ >>= f else m₂ >>= f) := by
  split
  · exact h₁.bind hf
  · exact h₂.bind hf

/-- A resolver is looked at for something that all those have in common of which `P` holds. -/
theorem steady_get_bind {f : Resolver → Resolving β} (h : ∀ r r', P r → P r' → f r = f r')
    (hf : ∀ r, P r → Steady P Q (f r)) : Steady P Q (get >>= f) := by
  by_cases hany : ∃ r, P r
  · obtain ⟨r₀, hr₀⟩ := hany
    obtain ⟨b, hb⟩ := hf r₀ hr₀
    refine ⟨b, fun r hr => ?_⟩
    rw [outcome_get_bind]
    simp only [h r r₀ hr hr₀]
    exact hb r hr
  · exact ⟨.error (.io ⟨""⟩ .missing), fun r hr => absurd ⟨r, hr⟩ hany⟩

end Steady

namespace Resolver

/-- A resolver that was not asked yet. -/
def fresh (cwd : Path) (tool : BuildTool) : Resolver := { cwd := cwd, tool := tool }

section Ready

variable (files : Tree) (cwd : Path) (tool : BuildTool)

/-- A resolver knows the targets of all packages. -/
structure Informed (r : Resolver) : Prop where
  cwd_eq : r.cwd = cwd
  tool_eq : r.tool = tool
  known_eq : r.known? = some ((fresh cwd tool).loadTargets files).1
  complaint_eq : r.complaint = ((fresh cwd tool).loadTargets files).2

/-- A resolver knows the targets of all packages, or can look for them. -/
def Ready (r : Resolver) : Prop :=
  Informed files cwd tool r ∨ r.cwd = cwd ∧ r.tool = tool ∧ r.known? = none ∧ r.complaint = none

variable {files cwd tool}

theorem Informed.ready {r : Resolver} (h : Informed files cwd tool r) : Ready files cwd tool r := .inl h

theorem ready_fresh : Ready files cwd tool (fresh cwd tool) := .inr ⟨rfl, rfl, rfl, rfl⟩

theorem Ready.cwd_eq {r : Resolver} (h : Ready files cwd tool r) : r.cwd = cwd := by
  rcases h with h | h
  · exact h.cwd_eq
  · exact h.1

/-- Whether a resolver is ready does not depend on the modules that it remembers. -/
theorem Ready.with_found {r : Resolver} (h : Ready files cwd tool r) (found : List (String × Package)) :
    Ready files cwd tool { r with found := found } := by
  rcases h with h | h
  · exact .inl ⟨h.cwd_eq, h.tool_eq, h.known_eq, h.complaint_eq⟩
  · exact .inr h

theorem steady_targets : Steady (Ready files cwd tool) (Informed files cwd tool) (targets files) := by
  refine ⟨.ok ((fresh cwd tool).loadTargets files).1, fun r hr => ?_⟩
  unfold targets
  rw [outcome_get_bind]
  rcases hr with hr | ⟨hcwd, htool, hknown, hcomplaint⟩
  · refine ⟨r, ?_, hr, rfl⟩
    simp only [hr.known_eq]
    rfl
  · have hload : r.loadTargets files = (fresh cwd tool).loadTargets files := by
      simp only [loadTargets, hcwd, htool, fresh]
    simp only [hknown, hload]
    refine ⟨_, rfl, ⟨hcwd, htool, rfl, ?_⟩, rfl⟩
    rw [hcomplaint]
    exact Option.or_none

private theorem steady_fileForDirectory (dir : Path) :
    Steady (Ready files cwd tool) (Ready files cwd tool) (fileForDirectory files dir) := by
  have hready : Steady (Ready files cwd tool) (Ready files cwd tool) (targets files) :=
    steady_targets.mono fun _ h => h.ready
  unfold fileForDirectory
  dsimp only
  split
  · refine hready.bind fun ts => steady_pure.bind fun own => ?_
    split
    · exact steady_pure
    · split
      · exact steady_pure
      · exact steady_throw
  · refine steady_pure.bind fun own => ?_
    split
    · exact steady_pure
    · split
      · exact steady_pure
      · exact steady_throw

private theorem steady_resolvePath (path : Path) :
    Steady (Ready files cwd tool) (Ready files cwd tool) (resolvePath files path) := by
  have hready : Steady (Ready files cwd tool) (Ready files cwd tool) (targets files) :=
    steady_targets.mono fun _ h => h.ready
  unfold resolvePath
  split
  · exact steady_throw
  · dsimp only
    refine Steady.ite_bind (steady_fileForDirectory _) steady_pure fun file => hready.bind fun ts => ?_
    split
    · exact steady_throw
    · exact steady_pure

private theorem steady_target? (name : String) :
    Steady (Ready files cwd tool) (Informed files cwd tool) (target? files name) :=
  steady_targets.bind fun _ => steady_pure

private theorem steady_targetAround? : Steady (Ready files cwd tool) (Informed files cwd tool) (targetAround? files) := by
  refine steady_targets.bind fun ts => steady_get_bind (fun r r' hr hr' => ?_) fun r _ => steady_pure
  rw [hr.cwd_eq, hr'.cwd_eq]

private theorem steady_resolveSpec (spec : String) :
    Steady (Ready files cwd tool) (Ready files cwd tool) (resolveSpec files spec) := by
  unfold resolveSpec
  split
  · exact steady_throw
  · exact steady_throw
  · dsimp only
    refine (Steady.ite_bind steady_targetAround? (steady_target? _) fun t? => ?_).mono fun _ h => h.ready
    split
    · refine steady_get_bind (fun r r' hr hr' => ?_) fun r _ => steady_throw
      rw [hr.complaint_eq, hr'.complaint_eq]
    · split
      · exact steady_pure
      · exact steady_throw

/-- A text that a resolver does not remember is read as a path if one is there, else as a module path. -/
def lookUp (files : Tree) (cwd : Path) (input : String) : Resolving Package :=
  if (input ≠ "" && files.has (cwd.join input)) = true then resolvePath files (cwd.join input)
  else resolveSpec files input

variable (files cwd tool) in
private theorem steady_lookUp (input : String) :
    Steady (Ready files cwd tool) (Ready files cwd tool) (lookUp files cwd input) := by
  unfold lookUp
  split
  · exact steady_resolvePath _
  · exact steady_resolveSpec _

theorem outcome_resolve_of_lookup {r : Resolver} {input : String} {p : Package} (h : r.found.lookup input = some p) :
    outcome (resolve files input) r = (.ok p, r) := by
  unfold resolve
  rw [outcome_get_bind]
  simp only [h]
  rfl

theorem outcome_resolve_of_new {r : Resolver} {input : String} (h : r.found.lookup input = none) :
    outcome (resolve files input) r =
      outcome (lookUp files r.cwd input >>= fun p => do remember input p; remember p.spec p; pure p) r := by
  unfold resolve lookUp
  rw [outcome_get_bind]
  simp only [h]
  split <;> rfl

end Ready

/-- What a resolver is asked for: the module that a text names, or the one that names lead to from the root of the
    crate of another module. -/
inductive Request where
  | resolve (input : String)
  | moduleIn (base : Package) (path : List String)

def Request.ask (files : Tree) : Request → Resolving Package
  | resolve input => Resolver.resolve files input
  | moduleIn base path => Resolver.moduleIn files base path

/-- The answers to requests that are made one after the other. -/
def answers (files : Tree) : List Request → Resolver → List (Except GenerationError Package)
  | [], _ => []
  | q :: rest, r => (outcome (q.ask files) r).1 :: answers files rest (outcome (q.ask files) r).2

section Transparency

variable (files : Tree) (cwd : Path) (tool : BuildTool)

/-- The answer of a resolver that was not asked before. -/
def freshAnswer (q : Request) : Except GenerationError Package := (outcome (q.ask files) (fresh cwd tool)).1

/-- The modules that requests can be about: the answers to texts, and to further requests about answers. -/
inductive Answerable : Package → Prop
  | ofText {input : String} {p : Package} : freshAnswer files cwd tool (.resolve input) = .ok p → Answerable p
  | inCrateOf {base : Package} {path : List String} {p : Package} :
      Answerable base → freshAnswer files cwd tool (.moduleIn base path) = .ok p → Answerable p

/-- A request is about a module that was an answer. -/
def Request.Proper : Request → Prop
  | resolve _ => True
  | moduleIn base _ => Answerable files cwd tool base

/-- Every request has the answer that a resolver gives which was not asked before. -/
def Transparent : Prop :=
  ∀ qs : List Request, (∀ q ∈ qs, q.Proper files cwd tool) →
    answers files qs (fresh cwd tool) = qs.map (freshAnswer files cwd tool)

/-- Module paths are as good as the modules that they are given for. -/
structure Unambiguous : Prop where
  leads_back : ∀ p, Answerable files cwd tool p → freshAnswer files cwd tool (.resolve p.spec) = .ok p
  leads_below : ∀ base path p, Answerable files cwd tool base →
    freshAnswer files cwd tool (.resolve (specFrom base path)) = .ok p → p.crateRoot.same base.crateRoot = true →
    freshAnswer files cwd tool (.moduleIn base path) = .ok p

/-- A resolver has only answers in memory that a fresh one gives too. -/
structure Faithful (r : Resolver) : Prop where
  ready : Ready files cwd tool r
  remembered : ∀ text p, r.found.lookup text = some p → freshAnswer files cwd tool (.resolve text) = .ok p

variable {files cwd tool}

private theorem faithful_fresh : Faithful files cwd tool (fresh cwd tool) := ⟨ready_fresh, fun _ _ h => by cases h⟩

/-- What one more module in memory takes to be faithful. -/
theorem Faithful.cons {r r' : Resolver} {text : String} {p : Package} (hr : Faithful files cwd tool r)
    (hready : Ready files cwd tool r') (hfound : r'.found = (text, p) :: r.found)
    (h : freshAnswer files cwd tool (.resolve text) = .ok p) : Faithful files cwd tool r' := by
  refine ⟨hready, fun text' q hq => ?_⟩
  rw [hfound, List.lookup_cons] at hq
  by_cases htext : text' = text
  · subst htext
    simp only [beq_self_eq_true, Option.some.injEq] at hq
    exact hq ▸ h
  · rw [beq_eq_false_iff_ne.mpr htext] at hq
    exact hr.remembered text' q hq

/-- A text that is not remembered has the answer of a fresh resolver. -/
theorem resolve_of_new {r : Resolver} (hr : Ready files cwd tool r) (input : String)
    (hnew : r.found.lookup input = none) :
    ∃ r', outcome (resolve files input) r = (freshAnswer files cwd tool (.resolve input), r') ∧
      Ready files cwd tool r' ∧
      ((∃ e, freshAnswer files cwd tool (.resolve input) = .error e ∧ r'.found = r.found) ∨
        ∃ p, freshAnswer files cwd tool (.resolve input) = .ok p ∧
          r'.found = (p.spec, p) :: (input, p) :: r.found) := by
  have hready : Ready files cwd tool (fresh cwd tool) := ready_fresh
  obtain ⟨a, ha⟩ := steady_lookUp files cwd tool input
  obtain ⟨r₀, hrun₀, -, -⟩ := ha _ hready
  obtain ⟨r₁, hrun, hr₁, hfound⟩ := ha r hr
  have hfresh : freshAnswer files cwd tool (.resolve input) = a := by
    rw [freshAnswer, Request.ask, outcome_resolve_of_new rfl, outcome_bind, hready.cwd_eq, hrun₀]
    cases a <;> rfl
  rw [outcome_resolve_of_new hnew, hr.cwd_eq, outcome_bind, hrun, hfresh]
  cases a with
  | error e => exact ⟨r₁, rfl, hr₁, .inl ⟨e, rfl, hfound⟩⟩
  | ok p => exact ⟨_, rfl, hr₁.with_found _, .inr ⟨p, rfl, by rw [← hfound]⟩⟩

variable (files cwd tool) in
theorem moduleIn_of_new {r : Resolver} {base : Package} {path : List String}
    (hnew : ∀ p, r.found.lookup (specFrom base path) = some p → p.crateRoot.same base.crateRoot = false) :
    (∃ e, freshAnswer files cwd tool (.moduleIn base path) = .error e ∧
        outcome (moduleIn files base path) r = (.error e, r)) ∨
      ∃ p, freshAnswer files cwd tool (.moduleIn base path) = .ok p ∧ p.spec = specFrom base path ∧
        outcome (moduleIn files base path) r = (.ok p, { r with found := (specFrom base path, p) :: r.found }) := by
  have hfresh : outcome (moduleIn files base path) (fresh cwd tool) =
      outcome (moduleIn.look files base path (specFrom base path)) (fresh cwd tool) :=
    outcome_moduleIn_of_new fun p hp => by cases hp
  rw [freshAnswer, Request.ask, hfresh, outcome_moduleIn_of_new hnew, moduleIn.look]
  cases descend files (specFrom base path) base.crateRoot path with
  | error e => exact .inl ⟨e, rfl, rfl⟩
  | ok file => exact .inr ⟨_, rfl, rfl, rfl⟩

/-- One step of a run: the answer is that of a fresh resolver, and it may be remembered. -/
theorem Faithful.step (hfiles : Unambiguous files cwd tool) {r : Resolver} (hr : Faithful files cwd tool r)
    {q : Request} (hq : q.Proper files cwd tool) :
    (outcome (q.ask files) r).1 = freshAnswer files cwd tool q ∧
      Faithful files cwd tool (outcome (q.ask files) r).2 := by
  cases q with
  | resolve input =>
    rcases hlookup : r.found.lookup input with _ | p
    · obtain ⟨r', hrun, hready, hfound⟩ := resolve_of_new hr.ready input hlookup
      rw [Request.ask, hrun]
      refine ⟨rfl, ?_⟩
      rcases hfound with ⟨e, -, hfound⟩ | ⟨p, hp, hfound⟩
      · exact ⟨hready, fun text p htext => hr.remembered text p (hfound ▸ htext)⟩
      · have hinput : Faithful files cwd tool { r with found := (input, p) :: r.found } :=
          hr.cons (hr.ready.with_found _) rfl hp
        exact hinput.cons hready hfound (hfiles.leads_back p (.ofText hp))
    · rw [Request.ask, outcome_resolve_of_lookup hlookup]
      exact ⟨(hr.remembered input p hlookup).symm, hr⟩
  | moduleIn base path =>
    by_cases hremembered : ∃ p, r.found.lookup (specFrom base path) = some p ∧
        p.crateRoot.same base.crateRoot = true
    · obtain ⟨p, hp, hroot⟩ := hremembered
      have hrun : outcome (moduleIn files base path) r = (.ok p, r) := gives_moduleIn_of_lookup hp hroot
      rw [Request.ask, hrun]
      exact ⟨(hfiles.leads_below base path p hq (hr.remembered _ p hp) hroot).symm, hr⟩
    · have hnew : ∀ p, r.found.lookup (specFrom base path) = some p → p.crateRoot.same base.crateRoot = false :=
        fun p hp => by simpa using fun hroot => hremembered ⟨p, hp, hroot⟩
      rcases moduleIn_of_new files cwd tool hnew with ⟨e, he, hrun⟩ | ⟨p, hp, hspec, hrun⟩
      · rw [Request.ask, hrun]
        exact ⟨he.symm, hr⟩
      · rw [Request.ask, hrun]
        refine ⟨hp.symm, hr.cons (hr.ready.with_found _) rfl ?_⟩
        rw [← hspec]
        exact hfiles.leads_back p (.inCrateOf hq hp)

private theorem Faithful.answers_eq (hfiles : Unambiguous files cwd tool) (qs : List Request)
    (hqs : ∀ q ∈ qs, q.Proper files cwd tool) {r : Resolver} (hr : Faithful files cwd tool r) :
    answers files qs r = qs.map (freshAnswer files cwd tool) := by
  induction qs generalizing r with
  | nil => rfl
  | cons q rest ih =>
    obtain ⟨hanswer, hr'⟩ := hr.step hfiles (hqs q List.mem_cons_self)
    rw [answers, List.map_cons, hanswer, ih (fun q' hq' => hqs q' (List.mem_cons_of_mem q hq')) hr']

/-- The second of two requests has the answer that a fresh resolver gives. -/
theorem Transparent.second (h : Transparent files cwd tool) (q q' : Request) (hq : q.Proper files cwd tool)
    (hq' : q'.Proper files cwd tool) :
    (outcome (q'.ask files) (outcome (q.ask files) (fresh cwd tool)).2).1 = freshAnswer files cwd tool q' := by
  have hanswers := h [q, q'] (by simp [hq, hq'])
  simp only [answers, List.map_cons, List.map_nil, List.cons.injEq, and_true] at hanswers
  exact hanswers.2

theorem Transparent.leads_back (h : Transparent files cwd tool) {p : Package} (hp : Answerable files cwd tool p) :
    freshAnswer files cwd tool (.resolve p.spec) = .ok p := by
  cases hp with
  | @ofText input _ hinput =>
    have hready : Ready files cwd tool (fresh cwd tool) := ready_fresh
    obtain ⟨r', hrun, -, hfound⟩ := resolve_of_new hready input rfl
    rcases hfound with ⟨e, he, -⟩ | ⟨q, hq, hfound⟩
    · rw [hinput] at he
      cases he
    · obtain rfl := Except.ok.inj (hinput.symm.trans hq)
      rw [← h.second (.resolve input) (.resolve p.spec) trivial trivial, Request.ask, Request.ask, hrun,
        outcome_resolve_of_lookup (p := p) (by rw [hfound, List.lookup_cons_self])]
  | @inCrateOf base path _ hbase hpath =>
    have hnew : ∀ q, (fresh cwd tool).found.lookup (specFrom base path) = some q →
        q.crateRoot.same base.crateRoot = false := fun q hq => by cases hq
    rcases moduleIn_of_new files cwd tool hnew with ⟨e, he, -⟩ | ⟨q, hq, hspec, hrun⟩
    · rw [hpath] at he
      cases he
    · obtain rfl := Except.ok.inj (hpath.symm.trans hq)
      rw [← h.second (.moduleIn base path) (.resolve p.spec) hbase trivial, Request.ask, Request.ask,
        hrun, outcome_resolve_of_lookup (p := p) (by rw [hspec, List.lookup_cons_self])]

theorem Transparent.leads_below (h : Transparent files cwd tool) {base p : Package} {path : List String}
    (hbase : Answerable files cwd tool base)
    (hp : freshAnswer files cwd tool (.resolve (specFrom base path)) = .ok p)
    (hroot : p.crateRoot.same base.crateRoot = true) :
    freshAnswer files cwd tool (.moduleIn base path) = .ok p := by
  have hready : Ready files cwd tool (fresh cwd tool) := ready_fresh
  obtain ⟨r', hrun, -, hfound⟩ := resolve_of_new hready (specFrom base path) rfl
  rcases hfound with ⟨e, he, -⟩ | ⟨q, hq, hfound⟩
  · rw [hp] at he
    cases he
  · obtain rfl := Except.ok.inj (hp.symm.trans hq)
    have hlookup : r'.found.lookup (specFrom base path) = some p := by
      rw [hfound, List.lookup_cons, List.lookup_cons_self]
      split
      · rfl
      · rfl
    have hgives : outcome (moduleIn files base path) r' = (.ok p, r') := gives_moduleIn_of_lookup hlookup hroot
    rw [← h.second (.resolve (specFrom base path)) (.moduleIn base path) trivial hbase, Request.ask,
      Request.ask, hrun, hgives]

/-- The memory of resolvers never shows in exactly those trees in which the module path of each module that can be
    found leads back to it, and a module path that leads into a crate leads to the same module from the root of the
    crate. -/
theorem transparent_iff (files : Tree) (cwd : Path) (tool : BuildTool) :
    Transparent files cwd tool ↔ Unambiguous files cwd tool := by
  constructor
  · intro h
    exact ⟨fun p hp => h.leads_back hp, fun base path p hbase hp hroot => h.leads_below hbase hp hroot⟩
  · intro hfiles qs hqs
    exact faithful_fresh.answers_eq hfiles qs hqs

/-- Whether a resolver knows the targets already does not change its answers. -/
theorem freshAnswer_of_targets {ts : List Target} {complaint : Option String}
    (h : (fresh cwd tool).loadTargets files = (ts, complaint)) (input : String) :
    freshAnswer files cwd tool (.resolve input) =
      (outcome (resolve files input) ⟨cwd, tool, some ts, complaint, []⟩).1 := by
  have hknows : Informed files cwd tool ⟨cwd, tool, some ts, complaint, []⟩ := ⟨rfl, rfl, by rw [h], by rw [h]⟩
  obtain ⟨r', hrun, -, -⟩ := resolve_of_new hknows.ready input rfl
  rw [hrun]

end Transparency

/-- A package with a library and a program. Of the modules of the library one lies in a directory with a name of its
    own. -/
def smallPackage : Tree where
  entries := [(["Cargo.toml"], .file (Text.encodeUtf8 "[package]\nname=\"s\"")), (["src"], .directory),
    (["src", "b"], .directory), (["src", "b", "c"], .directory), (["src", "b", "c", "mod.rs"], .file []),
    (["src", "b.rs"], .file (Text.encodeUtf8 "mod c;")), (["src", "g"], .directory),
    (["src", "g", "a.rs"], .file []),
    (["src", "lib.rs"], .file (Text.encodeUtf8 "mod b;#[path=\"g/a.rs\"]mod a;")), (["src", "main.rs"], .file [])]

private theorem mem_entries_of_mem_children {files : Tree} {place : Files.Place} {x : String × Files.Entry}
    (h : x ∈ files.children place) : (place ++ [x.1], x.2) ∈ files.entries := by
  rw [Files.Tree.children, List.mem_mergeSort, List.mem_filterMap] at h
  obtain ⟨⟨there, e⟩, hmem, hchild⟩ := h
  rw [Files.Tree.childOf] at hchild
  split at hchild
  · rename_i name hlast
    split at hchild
    · rename_i hdir
      obtain rfl := Option.some.inj hchild
      obtain ⟨front, rfl⟩ := List.getLast?_eq_some_iff.mp hlast
      rw [List.dropLast_concat] at hdir
      exact hdir ▸ hmem
    · cases hchild
  · cases hchild

/-- A walk below a place meets no package if there is no manifest. -/
theorem walkFrom_eq_nil {files : Tree} {place : Files.Place} (depth : Nat) (levels : List Manifest.IgnoreLevel)
    (dir : Path) (h : ∀ x ∈ files.entries, place <+: x.1 → x.1.getLast? ≠ some Manifest.fileName) :
    Manifest.walkFrom files depth levels dir place = [] := by
  induction depth generalizing levels dir place with
  | zero => rfl
  | succ depth ih =>
    rw [Manifest.walkFrom, List.flatMap_eq_nil_iff]
    intro x hx
    have hmem := mem_entries_of_mem_children hx
    have hname : x.1 ≠ Manifest.fileName := by
      have hlast := h _ hmem (List.prefix_append place [x.1])
      simpa using hlast
    dsimp only
    split
    · rfl
    · split
      · refine ih _ _ fun y hy hprefix => h y hy ?_
        exact (List.prefix_append place [x.1]).trans hprefix
      · rfl

private theorem walk_smallPackage : Manifest.walk smallPackage ⟨"/"⟩ = [⟨"/"⟩] := by
  have htop : smallPackage.children [] =
      [("Cargo.toml", .file (Text.encodeUtf8 "[package]\nname=\"s\"")), ("src", .directory)] :=
    List.mergeSort_of_pairwise (by decide)
  have hbelow : Manifest.walkFrom smallPackage 10 [Manifest.ignoreLevel smallPackage ["src"],
      Manifest.ignoreLevel smallPackage []] ⟨"/src"⟩ ["src"] = [] := walkFrom_eq_nil _ _ _ (by decide)
  have hmanifest : Manifest.isPassedOver [Manifest.ignoreLevel smallPackage []] ["Cargo.toml"] "Cargo.toml"
      false = false := by decide +kernel
  have hentered : Manifest.isPassedOver [Manifest.ignoreLevel smallPackage []] ["src"] "src" true = false := by
    decide +kernel
  have hparent : (Path.join ⟨"/"⟩ "Cargo.toml").parent? = some ⟨"/"⟩ := by decide +kernel
  have hjoin : Path.join ⟨"/"⟩ "src" = ⟨"/src"⟩ := by decide +kernel
  have hall : Manifest.walkFrom smallPackage 11 [Manifest.ignoreLevel smallPackage []] ⟨"/"⟩ [] = [⟨"/"⟩] := by
    rw [Manifest.walkFrom, htop]
    simp [hmanifest, hentered, hparent, hjoin, hbelow, Manifest.fileName]
  have hwalk : Manifest.walk smallPackage ⟨"/"⟩ = (Manifest.walkFrom smallPackage 11
      [Manifest.ignoreLevel smallPackage []] ⟨"/"⟩ []).mergeSort Manifest.isBefore := rfl
  rw [hwalk, hall, List.mergeSort_singleton]

theorem targets_smallPackage : (fresh ⟨"/"⟩ .unused).loadTargets smallPackage =
    ([⟨"s", "s", .lib, ⟨"/"⟩, ⟨"/src/lib.rs"⟩⟩, ⟨"s", "s", .bin, ⟨"/"⟩, ⟨"/src/main.rs"⟩⟩], none) := by
  simp only [loadTargets, fresh, BuildTool.targets, Manifest.discover, walk_smallPackage]
  decide +kernel

/-- The file that the program starts from is found as the root of the library, whose module path then leads to it. -/
theorem memory_shows_in_smallPackage : ¬Transparent smallPackage ⟨"/"⟩ .unused := by
  intro h
  have hprogram : freshAnswer smallPackage ⟨"/"⟩ .unused (.resolve "src/main.rs") =
      .ok ⟨"s", ⟨"/"⟩, ⟨"/src/lib.rs"⟩, [], ⟨"/src/main.rs"⟩⟩ := by
    rw [freshAnswer_of_targets targets_smallPackage]
    rfl
  have hlibrary : freshAnswer smallPackage ⟨"/"⟩ .unused (.resolve "s") =
      .ok ⟨"s", ⟨"/"⟩, ⟨"/src/lib.rs"⟩, [], ⟨"/src/lib.rs"⟩⟩ := by
    rw [freshAnswer_of_targets targets_smallPackage]
    rfl
  have hback := h.leads_back (.ofText hprogram)
  have hsame := Except.ok.inj (hback.symm.trans hlibrary)
  simp at hsame

end Resolver

end TraitMock
