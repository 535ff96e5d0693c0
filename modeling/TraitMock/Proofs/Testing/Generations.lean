import Mathlib.Data.List.Perm.Basic
import TraitMock.Testing.Cleanup

namespace TraitMock.Cleanup

/-- What a cleanup registers when it is run. -/
def nested : Cleanup → List Cleanup
  | .audit _ => []
  | .script _ _ nested => nested

/-- Whether a cleanup halts the test. -/
def halts : Cleanup → Bool
  | .script .fatal _ _ => true
  | .script .panic _ _ => true
  | _ => false

/-- What cleanups register that are run one after the other. -/
def nestedAll (cs : List Cleanup) : List Cleanup := cs.flatMap nested

section Members

mutual

/-- A cleanup with all that it leads to. -/
def members : Cleanup → List Cleanup
  | .audit m => [.audit m]
  | .script how text nested => .script how text nested :: membersAll nested

def membersAll : List Cleanup → List Cleanup
  | [] => []
  | c :: rest => c.members ++ membersAll rest

end

variable {cs ds : List Cleanup}

theorem members_eq (c : Cleanup) : c.members = c :: membersAll c.nested := by
  cases c <;> rfl

theorem membersAll_eq (cs : List Cleanup) : membersAll cs = cs.flatMap members := by
  induction cs with
  | nil => rfl
  | cons c rest ih => rw [membersAll, ih, List.flatMap_cons]

theorem membersAll_append (cs ds : List Cleanup) : membersAll (cs ++ ds) = membersAll cs ++ membersAll ds := by
  simp only [membersAll_eq, List.flatMap_append]

theorem membersAll_perm (h : cs.Perm ds) : (membersAll cs).Perm (membersAll ds) := by
  rw [membersAll_eq, membersAll_eq]
  exact h.flatMap_right members

theorem nestedAll_append (cs ds : List Cleanup) : nestedAll (cs ++ ds) = nestedAll cs ++ nestedAll ds :=
  List.flatMap_append

/-- Cleanups lead to themselves and to what those lead to that they register. -/
theorem membersAll_nested (cs : List Cleanup) : (membersAll cs).Perm (cs ++ membersAll (nestedAll cs)) := by
  induction cs with
  | nil => exact .refl _
  | cons c rest ih =>
    have hnested : nestedAll (c :: rest) = c.nested ++ nestedAll rest := rfl
    rw [membersAll, members_eq, hnested, membersAll_append, List.cons_append, List.cons_append]
    refine List.Perm.cons c ((ih.append_left _).trans ?_)
    rw [← List.append_assoc, ← List.append_assoc]
    exact List.perm_append_comm.append_right _

theorem mem_membersAll {c : Cleanup} (h : c ∈ cs) : c ∈ membersAll cs :=
  (membersAll_nested cs).mem_iff.mpr (List.mem_append_left _ h)

mutual

theorem length_members : (c : Cleanup) → c.members.length = c.size
  | .audit _ => rfl
  | .script _ _ nested => by
    rw [members, List.length_cons, length_membersAll nested, size, Nat.add_comm]

theorem length_membersAll : (cs : List Cleanup) → (membersAll cs).length = sizeAll cs
  | [] => rfl
  | c :: rest => by
    rw [membersAll, List.length_append, length_members c, length_membersAll rest, sizeAll]

end

theorem sizeAll_reverse (cs : List Cleanup) : sizeAll cs = cs.length + sizeAll (nestedAll cs.reverse) := by
  have hperm := (membersAll_perm cs.reverse_perm.symm).trans (membersAll_nested cs.reverse)
  have hlength := hperm.length_eq
  rwa [List.length_append, List.length_reverse, length_membersAll, length_membersAll] at hlength

theorem membersAll_eq_nil_iff : membersAll cs = [] ↔ cs = [] := by
  cases cs with
  | nil => simp [membersAll]
  | cons c rest => simp [membersAll, members_eq]

end Members

section Halting

/-- Those of a batch that are run: all up to the first one that halts the test. -/
def untilHalt : List Cleanup → List Cleanup
  | [] => []
  | c :: rest => if c.halts then [c] else c :: untilHalt rest

/-- Those of a batch that stand behind the first one that halts the test. -/
def behindHalt : List Cleanup → List Cleanup
  | [] => []
  | c :: rest => if c.halts then rest else behindHalt rest

variable {batch : List Cleanup}

theorem untilHalt_append_behindHalt (batch : List Cleanup) : untilHalt batch ++ behindHalt batch = batch := by
  induction batch with
  | nil => rfl
  | cons c rest ih =>
    rw [untilHalt, behindHalt]
    split
    · rfl
    · rw [List.cons_append, ih]

/-- A batch is cut short unless none but its last cleanup halts the test. -/
theorem behindHalt_eq_nil_iff : behindHalt batch = [] ↔ ∀ c ∈ batch.dropLast, c.halts = false := by
  induction batch with
  | nil => simp [behindHalt]
  | cons c rest ih =>
    cases rest with
    | nil =>
      rw [behindHalt]
      split <;> simp [behindHalt]
    | cons d rest =>
      rw [behindHalt, List.dropLast_cons_cons, List.forall_mem_cons, ← ih]
      split
      · rename_i hc
        simp [hc]
      · rename_i hc
        simp [hc]

theorem untilHalt_of_behindHalt (h : behindHalt batch = []) : untilHalt batch = batch := by
  have happend := untilHalt_append_behindHalt batch
  rwa [h, List.append_nil] at happend

theorem untilHalt_of_calm (h : ∀ c ∈ batch, c.halts = false) : untilHalt batch = batch :=
  untilHalt_of_behindHalt (behindHalt_eq_nil_iff.mpr fun c hc => h c (List.dropLast_subset batch hc))

/-- If a batch halts the test, then one of its cleanups that are run does. -/
theorem countP_untilHalt (batch : List Cleanup) :
    (untilHalt batch).countP halts = if batch.any halts then 1 else 0 := by
  induction batch with
  | nil => rfl
  | cons c rest ih =>
    rw [untilHalt, List.any_cons]
    by_cases hc : c.halts = true
    · simp [hc]
    · simp [hc, ih]

end Halting

/-- The cleanups `cs` are run generation by generation, which comes to `order`, up to the generation `last`. -/
inductive Generations : List Cleanup → List Cleanup → List Cleanup → Prop where
  | here (cs : List Cleanup) : Generations cs [] cs
  | next {cs order last : List Cleanup} (hne : cs ≠ []) (hrest : Generations (nestedAll cs.reverse) order last) :
    Generations cs (cs.reverse ++ order) last

section Generations

variable {cs order last : List Cleanup}

theorem Generations.trans {later final : List Cleanup} (h : Generations cs order last)
    (h' : Generations last later final) : Generations cs (order ++ later) final := by
  induction h with
  | here => exact h'
  | next hne _ ih =>
    rw [List.append_assoc]
    exact .next hne (ih h')

/-- Whole generations are run in one order only. -/
theorem Generations.unique {other : List Cleanup} (h : Generations cs order []) (h' : Generations cs other []) :
    order = other := by
  generalize hlast : ([] : List Cleanup) = last at h
  induction h generalizing other with
  | here cs =>
    subst hlast
    cases h' with
    | here => rfl
    | next hne _ => exact absurd rfl hne
  | next hne _ ih =>
    cases h' with
    | here => exact absurd rfl hne
    | next _ hother => rw [ih hother hlast]

/-- The generations are made of what cleanups lead to, each once. -/
theorem Generations.perm (h : Generations cs order last) : (membersAll cs).Perm (order ++ membersAll last) := by
  induction h with
  | here => exact .refl _
  | @next cs order last _ _ ih =>
    rw [List.append_assoc]
    exact ((membersAll_perm cs.reverse_perm.symm).trans (membersAll_nested cs.reverse)).trans (ih.append_left _)

/-- What the generations register, together with the first one, is them and the next one. -/
theorem Generations.registered (h : Generations cs order last) : (cs ++ nestedAll order).Perm (order ++ last) := by
  induction h with
  | here cs => exact List.perm_append_comm
  | @next cs order last _ _ ih =>
    rw [nestedAll_append, List.append_assoc]
    exact cs.reverse_perm.symm.append ih

/-- In each generation only the cleanup may halt the test that was registered first, which is run last. -/
def OnlyFirstHalts (cs : List Cleanup) : Prop :=
  ∀ order last, Generations cs order last → ∀ c ∈ last.tail, c.halts = false

theorem onlyFirstHalts_iff (hne : cs ≠ []) :
    OnlyFirstHalts cs ↔ (∀ c ∈ cs.tail, c.halts = false) ∧ OnlyFirstHalts (nestedAll cs.reverse) := by
  refine ⟨fun h => ⟨h [] cs (.here cs), fun order last hlast => h _ last (.next hne hlast)⟩, ?_⟩
  rintro ⟨hfirst, hrest⟩ order last hlast
  cases hlast with
  | here => exact hfirst
  | next _ hlast => exact hrest _ last hlast

theorem onlyFirstHalts_nil : OnlyFirstHalts [] := by
  intro order last hlast
  cases hlast with
  | here => simp
  | next hne _ => exact absurd rfl hne

/-- Behind generations that do not halt the test, nothing has changed. -/
theorem Generations.onlyFirstHalts_iff (h : Generations cs order last) (hcalm : ∀ c ∈ order, c.halts = false) :
    OnlyFirstHalts cs ↔ OnlyFirstHalts last := by
  induction h with
  | here => exact .rfl
  | @next cs order last hne _ ih =>
    obtain ⟨hfirst, hrest⟩ := List.forall_mem_append.mp hcalm
    rw [Cleanup.onlyFirstHalts_iff hne, ih hrest, and_iff_right]
    exact fun c hc => hfirst c (List.mem_reverse.mpr (List.mem_of_mem_tail hc))

end Generations

end TraitMock.Cleanup
