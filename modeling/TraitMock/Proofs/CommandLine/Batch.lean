import TraitMock.CommandLine.Execution
import TraitMock.Proofs.Files.Writing

namespace TraitMock.Generation

open Files (Place Tree)

section Steps

variable {α β : Type}

/-- What comes of a part of a run, with the workspace that is left. -/
def result (x : Generating α) (w : Workspace) : Except GenerationError α × Workspace := x.run.run w

private theorem result_pure (a : α) (w : Workspace) : result (pure a) w = (.ok a, w) := rfl

theorem result_bind (x : Generating α) (f : α → Generating β) (w : Workspace) :
    result (x >>= f) w =
      match result x w with
      | (.ok a, w₁) => result (f a) w₁
      | (.error e, w₁) => (.error e, w₁) := by
  have hbind : result (x >>= f) w = (ExceptT.bindCont f (result x w).1).run (result x w).2 := rfl
  rw [hbind]
  rcases result x w with ⟨_ | _, _⟩ <;> rfl

private theorem result_print (s : String) (w : Workspace) :
    result (print s) w = (.ok (), { w with printed := w.printed ++ s }) := rfl

/-- Generating a mock writes nothing. -/
theorem result_generate (r : Request) (w : Workspace) :
    result (generate r) w =
      (((generated w.files r).run.run w.resolver).1,
        { w with resolver := ((generated w.files r).run.run w.resolver).2 }) := by
  have hget : result (get : Generating Workspace) w = (.ok w, w) := rfl
  rw [generate, result_bind, hget]
  dsimp only
  rcases (generated w.files r).run.run w.resolver with ⟨_ | _, _⟩ <;> rfl

theorem result_change (p : Path) (f : Tree → Except Files.Fault Tree) (w : Workspace) :
    result (change p f) w =
      match f w.files with
      | .ok files => (.ok (), { w with files := files })
      | .error fault => (.error (.io p fault), w) := by
  have hchange : result (change p f) w =
      result (match f w.files with
        | .ok files => set { w with files := files }
        | .error fault => throw (.io p fault) : Generating Unit) w := rfl
  rw [hchange]
  cases f w.files <;> rfl

end Steps

/-- What comes of an entry of a batch: the mock, once it is written and its file is named. -/
def attempt (r : Request) : Generating Generated := do
  let g ← generate r
  g.write
  match g.output with
  | .file p => print (p.text ++ "\n")
  | .stdout => pure ()
  pure g

/-- What an entry leaves behind. -/
inductive Leaves (w w' : Workspace) : Except GenerationError Generated → Prop where
  | failed (e : GenerationError) (hfiles : w.files.Extends w'.files fun _ => False)
    (hprinted : w'.printed = w.printed) : Leaves w w' (.error e)
  | printed {g : Generated} (hout : g.output = .stdout) (hfiles : w'.files = w.files)
    (hprinted : w'.printed = w.printed ++ g.source) : Leaves w w' (.ok g)
  | written {g : Generated} {p : Path} {place : Place} (hout : g.output = .file p)
    (hlocate : w'.files.locate p = .ok place)
    (hentry : w'.files.entry? place = some (.file (Text.encodeUtf8 g.source)))
    (hfiles : w.files.Extends w'.files (· = place)) (hprinted : w'.printed = w.printed ++ (p.text ++ "\n")) :
    Leaves w w' (.ok g)

section Attempts

variable {w : Workspace} {g : Generated} {p : Path}

/-- Making the directories above a file leaves all files as they were, also if it fails. -/
theorem makeRoom_extends (p : Path) (w : Workspace) :
    ∃ x w', result (match p.parent? with
        | some dir => change dir fun files => files.makeDirectories dir
        | none => pure () : Generating Unit) w = (x, w') ∧
      w.files.Extends w'.files (fun _ => False) ∧ w'.printed = w.printed := by
  cases p.parent? with
  | none => exact ⟨_, _, rfl, .refl _ _, rfl⟩
  | some dir =>
    dsimp only
    rw [result_change]
    cases hmake : w.files.makeDirectories dir with
    | error fault => exact ⟨_, _, rfl, .refl _ _, rfl⟩
    | ok files => exact ⟨_, _, rfl, Tree.extends_of_makeDirectories hmake, rfl⟩

/-- Writing a file fails and leaves all files as they were, or the path leads to the file in the end. -/
theorem result_write_file (hout : g.output = .file p) (w : Workspace) :
    (∃ e w', result g.write w = (.error e, w') ∧ w.files.Extends w'.files (fun _ => False) ∧
      w'.printed = w.printed) ∨
    ∃ w' place, result g.write w = (.ok (), w') ∧ w'.files.locate p = .ok place ∧
      w'.files.entry? place = some (.file (Text.encodeUtf8 g.source)) ∧
      w.files.Extends w'.files (· = place) ∧ w'.printed = w.printed := by
  have hwrite : g.write = ((match p.parent? with
      | some dir => change dir fun files => files.makeDirectories dir
      | none => pure () : Generating Unit) >>= fun _ => change p fun files => files.writeText p g.source) := by
    rw [Generated.write, hout]
    dsimp only
    cases p.parent? <;> rfl
  obtain ⟨x, w₁, hroom, hextends, hprinted⟩ := makeRoom_extends p w
  rw [hwrite, result_bind, hroom]
  cases x with
  | error e => exact .inl ⟨e, w₁, rfl, hextends, hprinted⟩
  | ok u =>
    dsimp only
    rw [result_change]
    cases hbytes : w₁.files.writeText p g.source with
    | error fault => exact .inl ⟨_, w₁, rfl, hextends, hprinted⟩
    | ok files =>
      obtain ⟨place, hlocate, hentry, hfiles⟩ := Tree.extends_of_writeBytes hbytes
      exact .inr ⟨_, place, rfl, hlocate, hentry, (hextends.mono fun _ h => h.elim).trans hfiles, hprinted⟩

/-- What an entry leaves behind, whatever comes of it. -/
theorem leaves_attempt (r : Request) (w : Workspace) :
    Leaves w (result (attempt r) w).2 (result (attempt r) w).1 := by
  rw [attempt, result_bind, result_generate]
  cases ((generated w.files r).run.run w.resolver).1 with
  | error e => exact .failed e (.refl _ _) rfl
  | ok g =>
    dsimp only
    rw [result_bind]
    cases hout : g.output with
    | stdout =>
      have hwrite : g.write = print g.source := by rw [Generated.write, hout]
      rw [hwrite, result_print]
      exact .printed hout rfl rfl
    | file p =>
      rcases result_write_file hout { w with resolver := ((generated w.files r).run.run w.resolver).2 } with
        ⟨e, w', hwrite, hfiles, hprinted⟩ | ⟨w', place, hwrite, hlocate, hentry, hfiles, hprinted⟩
      · rw [hwrite]
        exact .failed e hfiles hprinted
      · rw [hwrite]
        exact .written hout hlocate hentry hfiles (congrArg (· ++ (p.text ++ "\n")) hprinted)

end Attempts

/-- What an entry prints. -/
def printedOf : Except GenerationError Generated → String
  | .error _ => ""
  | .ok g =>
    match g.output with
    | .stdout => g.source
    | .file p => p.text ++ "\n"

/-- An entry that wrote the file at the end of a path. -/
def Writes (t : Tree) (x : Except GenerationError Generated) (place : Place) : Prop :=
  ∃ g p, x = .ok g ∧ g.output = .file p ∧ t.locate p = .ok place

/-- The last of some entries that wrote to a place. -/
structure IsLast (t : Tree) (xs : List (Except GenerationError Generated)) (place : Place) (n : Nat) (g : Generated) :
    Prop where
  getElem?_eq : xs[n]? = some (.ok g)
  writes : Writes t (.ok g) place
  last {m : Nat} {x : Except GenerationError Generated} (hm : n < m) (hx : xs[m]? = some x) : ¬Writes t x place

theorem IsLast.cons {t : Tree} {xs : List (Except GenerationError Generated)} {place : Place} {n : Nat}
    {g : Generated} (h : IsLast t xs place n g) (x : Except GenerationError Generated) :
    IsLast t (x :: xs) place (n + 1) g where
  getElem?_eq := h.getElem?_eq
  writes := h.writes
  last {m} _ hm hx := by
    obtain ⟨m, rfl⟩ : ∃ k, m = k + 1 := ⟨m - 1, by omega⟩
    exact h.last (Nat.lt_of_succ_lt_succ hm) hx

/-- What entries leave in the files, one after the other. -/
structure LeavesAll (w w' : Workspace) (xs : List (Except GenerationError Generated)) : Prop where
  printed_eq : w'.printed = w.printed ++ String.join (xs.map printedOf)
  extends_files : w.files.Extends w'.files fun place => ∃ x ∈ xs, Writes w'.files x place
  locates {g : Generated} {p : Path} (hg : .ok g ∈ xs) (hout : g.output = .file p) : ∃ place, w'.files.locate p = .ok place
  last {x : Except GenerationError Generated} {place : Place} (hx : x ∈ xs) (h : Writes w'.files x place) :
    ∃ n g, IsLast w'.files xs place n g ∧ w'.files.entry? place = some (.file (Text.encodeUtf8 g.source))

section Cons

variable {w w₁ w' : Workspace} {x : Except GenerationError Generated} {xs : List (Except GenerationError Generated)}

theorem Leaves.printed_eq (h : Leaves w w' x) : w'.printed = w.printed ++ printedOf x := by
  cases h with
  | failed e hfiles hprinted => rw [hprinted, printedOf, String.append_empty]
  | printed hout hfiles hprinted =>
    rw [hprinted, printedOf]
    simp only [hout]
  | written hout hlocate hentry hfiles hprinted =>
    rw [hprinted, printedOf]
    simp only [hout]

/-- An entry extends the files, and it wrote where its path leads to later on. -/
theorem Leaves.extends_files {written : Place → Prop} (h : Leaves w w₁ x) (hlater : w₁.files.Extends w'.files written) :
    w.files.Extends w₁.files fun place => Writes w'.files x place := by
  cases h with
  | failed e hfiles => exact hfiles.mono fun _ h => h.elim
  | printed hout hfiles => exact hfiles ▸ .refl _ _
  | written hout hlocate hentry hfiles =>
    refine hfiles.mono ?_
    rintro place rfl
    exact ⟨_, _, rfl, hout, hlater.locate_eq hlocate⟩

/-- What an entry wrote, as long as no other one writes there. -/
theorem Leaves.entry?_eq {g : Generated} {place : Place} {written : Place → Prop} (h : Leaves w w₁ (.ok g))
    (hlater : w₁.files.Extends w'.files written) (hwrites : Writes w'.files (.ok g) place) (hout : ¬written place) :
    w'.files.entry? place = some (.file (Text.encodeUtf8 g.source)) := by
  obtain ⟨_, p, ⟨rfl⟩, hp, hplace⟩ := hwrites
  cases h with
  | printed hstdout =>
    rw [hp] at hstdout
    cases hstdout
  | written hfile hlocate hentry =>
    obtain rfl := Output.file.inj (hp.symm.trans hfile)
    obtain rfl := Except.ok.inj (hplace.symm.trans (hlater.locate_eq hlocate))
    exact hlater.file_eq hentry hout

theorem LeavesAll.cons (hx : Leaves w w₁ x) (hxs : LeavesAll w₁ w' xs) : LeavesAll w w' (x :: xs) where
  printed_eq := by
    rw [hxs.printed_eq, hx.printed_eq, List.map_cons, String.join_cons, String.append_assoc]
  extends_files :=
    ((hx.extends_files hxs.extends_files).mono fun place h => ⟨x, List.mem_cons_self, h⟩).trans
      (hxs.extends_files.mono fun place ⟨y, hy, h⟩ => ⟨y, List.mem_cons_of_mem x hy, h⟩)
  locates {g p} hg hout := by
    rcases List.mem_cons.mp hg with rfl | hg
    · cases hx with
      | printed hstdout =>
        rw [hout] at hstdout
        cases hstdout
      | written hfile hlocate =>
        obtain rfl := Output.file.inj (hout.symm.trans hfile)
        exact ⟨_, hxs.extends_files.locate_eq hlocate⟩
    · exact hxs.locates hg hout
  last {y place} hy h := by
    by_cases hlater : ∃ z ∈ xs, Writes w'.files z place
    · obtain ⟨z, hz, hzplace⟩ := hlater
      obtain ⟨n, g, hlast, hentry⟩ := hxs.last hz hzplace
      exact ⟨n + 1, g, hlast.cons x, hentry⟩
    · rcases List.mem_cons.mp hy with rfl | hy
      · obtain ⟨g, p, rfl, hp⟩ := h
        refine ⟨0, g, ⟨rfl, ⟨g, p, rfl, hp⟩, fun {m z} hm hz hzplace => hlater ⟨z, ?_, hzplace⟩⟩,
          hx.entry?_eq hxs.extends_files ⟨g, p, rfl, hp⟩ hlater⟩
        obtain ⟨m, rfl⟩ : ∃ k, m = k + 1 := ⟨m - 1, by omega⟩
        exact List.mem_of_getElem? hz
      · exact absurd ⟨y, hy, h⟩ hlater

end Cons

end TraitMock.Generation

namespace TraitMock.CommandLine

open Files (Place Tree)
open Generation

/-- What comes of each of some entries, one after the other, and the workspace that they leave. -/
def attempts (shared : SharedSettings) : List MockEntry → Workspace → List (Except GenerationError Generated) × Workspace
  | [], w => ([], w)
  | m :: rest, w =>
    let (x, w₁) := result (attempt (.ofEntry m shared)) w
    let (xs, w₂) := attempts shared rest w₁
    (x :: xs, w₂)

/-- The entries that failed, with their errors. -/
def failures : List MockEntry → List (Except GenerationError Generated) → List (MockEntry × GenerationError)
  | m :: ms, .error e :: xs => (m, e) :: failures ms xs
  | _ :: ms, .ok _ :: xs => failures ms xs
  | _, _ => []

private theorem result_runAndPrint (r : Request) (w : Workspace) :
    result (runAndPrint r) w = ((result (attempt r) w).1.map fun _ => (), (result (attempt r) w).2) := by
  rw [runAndPrint, run, attempt, result_bind, result_bind, result_bind]
  rcases result (generate r) w with ⟨e | g, w₁⟩
  · rfl
  · dsimp only
    rw [result_bind, result_bind]
    rcases result g.write w₁ with ⟨e | u, w₂⟩
    · rfl
    · dsimp only
      rw [result_pure]
      cases g.output <;> rfl

/-- A batch reports the entries that failed. -/
theorem runEntries_eq (shared : SharedSettings) (ms : List MockEntry) (w : Workspace) :
    (runEntries shared ms).run w = (failures ms (attempts shared ms w).1, (attempts shared ms w).2) := by
  induction ms generalizing w with
  | nil => rfl
  | cons m rest ih =>
    have hrun := result_runAndPrint (.ofEntry m shared) w
    rcases hattempt : result (attempt (.ofEntry m shared)) w with ⟨x, w₁⟩
    rw [hattempt] at hrun
    have hhead : StateT.run (ExceptT.run (runAndPrint (.ofEntry m shared))) w = (x.map fun _ => (), w₁) := hrun
    rw [runEntries, StateT.run_bind, hhead]
    simp only [attempts, hattempt]
    cases x with
    | error e =>
      simp only [StateT.run_bind, ih, failures]
      rfl
    | ok g =>
      simp only [StateT.run_bind, ih, failures]
      rfl

private theorem length_failures {ms : List MockEntry} {xs : List (Except GenerationError Generated)}
    (h : xs.length = ms.length) : (failures ms xs).length = xs.countP fun x => !x.isOk := by
  induction ms generalizing xs with
  | nil =>
    obtain rfl := List.length_eq_zero_iff.mp h
    rfl
  | cons m rest ih =>
    obtain ⟨x, xs, rfl⟩ := List.exists_cons_of_length_eq_add_one h
    have hrest := ih (Nat.succ.inj h)
    cases x with
    | error e => simp [failures, Except.isOk, Except.toBool, hrest]
    | ok g => simp [failures, Except.isOk, Except.toBool, hrest]

private theorem leavesAll_attempts (shared : SharedSettings) (ms : List MockEntry) (w : Workspace) :
    (attempts shared ms w).1.length = ms.length ∧
      LeavesAll w (attempts shared ms w).2 (attempts shared ms w).1 := by
  induction ms generalizing w with
  | nil => exact ⟨rfl, by simp [attempts, String.join], .refl _ _, by simp [attempts], by simp [attempts]⟩
  | cons m rest ih =>
    obtain ⟨hlength, hrest⟩ := ih (result (attempt (.ofEntry m shared)) w).2
    exact ⟨congrArg (· + 1) hlength, .cons (leaves_attempt _ w) hrest⟩

/-- The configuration file of a batch. -/
def configPath (s : Surroundings) (config : Option String) : Path := s.cwd.join (config.getD Config.fileName)

/-- What comes of each entry of a batch, and the workspace that is left. -/
def batch (s : Surroundings) (config : Option String) (c : Config) :
    List (Except GenerationError Generated) × Workspace :=
  attempts c.shared c.mocks (s.workspace ((configPath s config).parent?.getD ⟨"."⟩))

/-- The last line of a batch in which entries failed. -/
def summary (failed : Nat) : List String :=
  if failed = 0 then [] else [speaker "batch" ++ toString failed ++ " mock(s) failed"]

private theorem runBatch_eq {s : Surroundings} {config : Option String} {c : Config}
    (hconfig : Config.ofFile s.files (configPath s config) = .ok c) :
    runBatch s config =
      { status := if (failures c.mocks (batch s config c).1).length = 0 then 0 else 1
        files := (batch s config c).2.files
        printed := (batch s config c).2.printed
        messages := (failures c.mocks (batch s config c).1).map (fun x => failureMessage x.1 x.2) ++
          summary (failures c.mocks (batch s config c).1).length } := by
  have hrun : (runEntries c.shared c.mocks).run (s.workspace ((configPath s config).parent?.getD ⟨"."⟩)) =
      (failures c.mocks (batch s config c).1, (batch s config c).2) := runEntries_eq ..
  rw [configPath] at hconfig hrun
  unfold runBatch
  simp only [hconfig, hrun]
  cases failures c.mocks (batch s config c).1 with
  | nil => rfl
  | cons x rest => rfl

/-- A batch counts the entries that failed, and its status tells whether there are any. The path of each mock that was
    written leads to a file in the end, which holds the mock that was written there last: the mock itself, unless a
    later entry was given the same file. -/
theorem batch_keeps_last_mocks (s : Surroundings) (config : Option String) {c : Config}
    (hconfig : Config.ofFile s.files (configPath s config) = .ok c) :
    let xs := (batch s config c).1
    let failed := xs.countP fun x => !x.isOk
    let o := runBatch s config
    xs.length = c.mocks.length ∧ o.status = (if failed = 0 then 0 else 1) ∧
      (failures c.mocks xs).length = failed ∧
      o.messages = (failures c.mocks xs).map (fun x => failureMessage x.1 x.2) ++ summary failed ∧
      o.printed = String.join (xs.map printedOf) ∧
      ∀ k g p, xs[k]? = some (.ok g) → g.output = .file p →
        ∃ place n g', k ≤ n ∧ o.files.locate p = .ok place ∧ IsLast o.files xs place n g' ∧
          o.files.readBytes p = .ok (Text.encodeUtf8 g'.source) ∧
          ((∀ m x, k < m → xs[m]? = some x → ¬Writes o.files x place) → g' = g) := by
  obtain ⟨hlength, hleaves⟩ : (batch s config c).1.length = c.mocks.length ∧ LeavesAll _ (batch s config c).2
    (batch s config c).1 := leavesAll_attempts c.shared c.mocks _
  dsimp only
  rw [runBatch_eq hconfig, length_failures hlength]
  refine ⟨hlength, rfl, rfl, rfl, ?_, ?_⟩
  · rw [hleaves.printed_eq]
    rfl
  · intro k g p hk hout
    obtain ⟨place, hplace⟩ := hleaves.locates (List.mem_of_getElem? hk) hout
    have hwrites : Writes (batch s config c).2.files (.ok g) place := ⟨g, p, rfl, hout, hplace⟩
    obtain ⟨n, g', hlast, hentry⟩ := hleaves.last (List.mem_of_getElem? hk) hwrites
    refine ⟨place, n, g', ?_, hplace, hlast, ?_, fun hnone => ?_⟩
    · by_contra hlt
      exact hlast.last (Nat.lt_of_not_le hlt) hk hwrites
    · simp [Tree.readBytes, hplace, hentry, bind, Except.bind, pure, Except.pure]
    · obtain rfl : n = k := by
        by_contra hne
        have hlt : k < n := Nat.lt_of_le_of_ne (Nat.le_of_not_lt fun hlt => hlast.last hlt hk hwrites) (Ne.symm hne)
        exact hnone n _ hlt hlast.getElem?_eq hlast.writes
      exact Except.ok.inj (Option.some.inj (hlast.getElem?_eq.symm.trans hk))

section Depot

/-- A configuration that asks for mocks of two traits of one name, in one module. -/
def depotConfig : Config where
  mocks := [{ source := "s::a", destination := "s", traitName := "T" },
    { source := "s::b", destination := "s", traitName := "T" }]

def depotFile (place : Place) (text : String) : Place × Files.Entry := (place, .file (Text.encodeUtf8 text))

def depot : Surroundings where
  files := ⟨[depotFile ["Cargo.toml"] "[package]\nname=\"s\"",
    depotFile ["mockkit.json"] ("\x7b\"mocks\":[\x7b\"src\":\"s::a\",\"dst\":\"s\",\"trait\":\"T\"\x7d," ++
      "\x7b\"src\":\"s::b\",\"dst\":\"s\",\"trait\":\"T\"\x7d]\x7d"),
    (["src"], .directory), depotFile ["src", "lib.rs"] "mod a;mod b;",
    depotFile ["src", "a.rs"] "trait T \x7b fn f(&self); \x7d",
    depotFile ["src", "b.rs"] "trait T \x7b fn f(&self); fn g(&self); \x7d"]⟩
  cwd := ⟨"/"⟩
  tool := .answers 0 ("\x7b\"packages\":[\x7b\"name\":\"s\",\"manifest_path\":\"/Cargo.toml\"," ++
    "\"targets\":[\x7b\"name\":\"s\",\"kind\":[\"lib\"],\"src_path\":\"/src/lib.rs\"\x7d]\x7d]\x7d") ""

theorem config_depot : Config.ofFile depot.files (configPath depot none) = .ok depotConfig := by
  have hread : (Config.ofFile depot.files (configPath depot none)).toOption = some depotConfig := by decide +kernel
  cases hfile : Config.ofFile depot.files (configPath depot none) with
  | error e => simp [hfile, Except.toOption] at hread
  | ok c => simpa [hfile, Except.toOption] using hread

/-- Both mocks are written, to one file. -/
theorem exists_mocks_of_depot : ∃ g g', (batch depot none depotConfig).1 = [.ok g, .ok g'] ∧
    g.output = .file ⟨"/src/t_mock.rs"⟩ ∧ g'.output = .file ⟨"/src/t_mock.rs"⟩ ∧
    Text.encodeUtf8 g.source ≠ Text.encodeUtf8 g'.source := by
  have hmocks : (batch depot none depotConfig).1.map (fun x => x.toOption.map fun g =>
      (g.output, (Text.encodeUtf8 g.source).length)) =
      [some (.file ⟨"/src/t_mock.rs"⟩, 728), some (.file ⟨"/src/t_mock.rs"⟩, 831)] := by decide +kernel
  rcases hxs : (batch depot none depotConfig).1 with _ | ⟨_ | g, _ | ⟨_ | g', _ | ⟨_, _⟩⟩⟩
  all_goals simp [hxs, Except.toOption] at hmocks
  obtain ⟨⟨hout, hlength⟩, hout', hlength'⟩ := hmocks
  refine ⟨g, g', rfl, hout, hout', fun heq => ?_⟩
  rw [heq, hlength'] at hlength
  simp at hlength

/-- Whether each mock that was written to a file is there in the end. -/
def KeepsMocks (s : Surroundings) (config : Option String) (c : Config) : Prop :=
  ∀ (k : Nat) (g : Generated) (p : Path), (batch s config c).1[k]? = some (.ok g) → g.output = .file p →
    (runBatch s config).files.readBytes p = .ok (Text.encodeUtf8 g.source)

/-- Of two traits of one name that are mocked in one module, the first mock is lost. -/
theorem depot_loses_mock : Config.ofFile depot.files (configPath depot none) = .ok depotConfig ∧
    ¬KeepsMocks depot none depotConfig := by
  obtain ⟨g, g', hxs, hout, hout', hne⟩ := exists_mocks_of_depot
  refine ⟨config_depot, fun hkeeps => hne ?_⟩
  have hfirst := hkeeps 0 g _ (by rw [hxs]; rfl) hout
  have hsecond := hkeeps 1 g' _ (by rw [hxs]; rfl) hout'
  exact Except.ok.inj (hfirst.symm.trans hsecond)

/-- The file holds the second mock, and the batch reports no failure. -/
theorem last_mock_of_depot : ∃ g g', (batch depot none depotConfig).1 = [.ok g, .ok g'] ∧
    (runBatch depot none).status = 0 ∧ (runBatch depot none).messages = [] ∧
    (runBatch depot none).printed = "/src/t_mock.rs\n/src/t_mock.rs\n" ∧
    (runBatch depot none).files.readBytes ⟨"/src/t_mock.rs"⟩ = .ok (Text.encodeUtf8 g'.source) := by
  obtain ⟨g, g', hxs, hout, hout', -⟩ := exists_mocks_of_depot
  obtain ⟨-, hstatus, -, hmessages, hprinted, hlast⟩ := batch_keeps_last_mocks depot none config_depot
  obtain ⟨place, n, g'', -, -, -, hread, hown⟩ := hlast 1 g' _ (by rw [hxs]; rfl) hout'
  rw [hxs] at hstatus hmessages hprinted hown
  obtain rfl := hown (by
    intro m x hm hx
    obtain ⟨m, rfl⟩ : ∃ k, m = k + 2 := ⟨m - 2, by omega⟩
    simp at hx)
  exact ⟨g, g'', hxs, hstatus, hmessages, by simpa [printedOf, hout, hout', String.join] using hprinted, hread⟩

end Depot

end TraitMock.CommandLine
