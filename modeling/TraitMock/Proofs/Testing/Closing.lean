import TraitMock.Proofs.Testing.Generations

namespace TraitMock.Closing

open Cleanup

variable {σ : Type} {m : Closing σ} {s : σ}

/-- Closes, and closes again as long as a cleanup halts the test, at most `n` times again. -/
def closeAgain (m : Closing σ) : Nat → σ → σ × Option Halt
  | 0, s => m.close s
  | n + 1, s =>
    match m.close s with
    | (t, none) => (t, none)
    | (t, some _) => closeAgain m n t

section Steps

variable {c : Cleanup} {rest : List Cleanup} {n : Nat}

theorem batch_of_run (h : (m.run c s).2 = none) : m.batch (c :: rest) s = m.batch rest (m.run c s).1 := by
  rw [batch]
  split
  · rename_i t hrun
    rw [hrun]
  · rename_i t halt hrun
    rw [hrun] at h
    cases h

theorem batch_of_halt (h : (m.run c s).2 ≠ none) : m.batch (c :: rest) s = m.run c s := by
  rw [batch]
  split
  · rename_i t hrun
    rw [hrun] at h
    exact absurd rfl h
  · rename_i t halt hrun
    exact hrun.symm

theorem rounds_of_pending_eq_nil (h : m.pending s = []) (n : Nat) : m.rounds n s = (s, none) := by
  cases n with
  | zero => rfl
  | succ n =>
    rw [rounds.eq_def]
    dsimp only
    rw [h]

theorem rounds_of_run (hne : m.pending s ≠ []) (h : (m.batch (m.pending s).reverse (m.clear s)).2 = none) :
    m.rounds (n + 1) s = m.rounds n (m.batch (m.pending s).reverse (m.clear s)).1 := by
  rw [rounds.eq_def]
  dsimp only
  split
  · rename_i hnil
    exact absurd hnil hne
  · split
    · rename_i t hbatch
      rw [hbatch]
    · rename_i t halt hbatch
      rw [hbatch] at h
      cases h

theorem rounds_of_halt (hne : m.pending s ≠ []) (h : (m.batch (m.pending s).reverse (m.clear s)).2 ≠ none) :
    m.rounds (n + 1) s = m.batch (m.pending s).reverse (m.clear s) := by
  rw [rounds.eq_def]
  dsimp only
  split
  · rename_i hnil
    exact absurd hnil hne
  · split
    · rename_i t hbatch
      rw [hbatch] at h
      exact absurd rfl h
    · rename_i t halt hbatch
      exact hbatch.symm

theorem closeAgain_of_close (h : (m.close s).2 = none) (n : Nat) : m.closeAgain n s = m.close s := by
  cases n with
  | zero => rfl
  | succ n =>
    rw [closeAgain]
    split
    · rename_i t hclose
      exact hclose.symm
    · rename_i t halt hclose
      rw [hclose] at h
      cases h

theorem closeAgain_of_halt (h : (m.close s).2 ≠ none) : m.closeAgain (n + 1) s = m.closeAgain n (m.close s).1 := by
  rw [closeAgain]
  split
  · rename_i t hclose
    rw [hclose] at h
    exact absurd rfl h
  · rename_i t halt hclose
    rw [hclose]

end Steps

section Watched

/-- The manager that also keeps what is run, each cleanup with the state in which it is run. -/
def watched (m : Closing σ) : Closing (σ × List (Cleanup × σ)) where
  pending x := m.pending x.1
  clear x := (m.clear x.1, x.2)
  run c x := (((m.run c x.1).1, x.2 ++ [(c, x.1)]), (m.run c x.1).2)

/-- What closing runs, in order, and in which states. -/
def runs (m : Closing σ) (s : σ) : List (Cleanup × σ) := (m.watched.close (s, [])).1.2

/-- What closing runs, in order. -/
def order (m : Closing σ) (s : σ) : List Cleanup := (m.runs s).map (·.1)

/-- What closing again and again runs, in order. -/
def orderAgain (m : Closing σ) (n : Nat) (s : σ) : List Cleanup := (m.watched.closeAgain n (s, [])).1.2.map (·.1)

variable {x : σ × List (Cleanup × σ)}

private theorem batch_watched (cs : List Cleanup) (x : σ × List (Cleanup × σ)) :
    m.batch cs x.1 = ((m.watched.batch cs x).1.1, (m.watched.batch cs x).2) := by
  induction cs generalizing x with
  | nil => rfl
  | cons c rest ih =>
    by_cases hrun : (m.run c x.1).2 = none
    · have hwatched : (m.watched.run c x).2 = none := hrun
      rw [batch_of_run hrun, batch_of_run hwatched, ← ih]
      rfl
    · have hwatched : (m.watched.run c x).2 ≠ none := hrun
      rw [batch_of_halt hrun, batch_of_halt hwatched]
      rfl

private theorem rounds_watched (n : Nat) (x : σ × List (Cleanup × σ)) :
    m.rounds n x.1 = ((m.watched.rounds n x).1.1, (m.watched.rounds n x).2) := by
  induction n generalizing x with
  | zero => rfl
  | succ n ih =>
    have hpending : m.watched.pending x = m.pending x.1 := rfl
    by_cases hnil : m.pending x.1 = []
    · rw [rounds_of_pending_eq_nil hnil, rounds_of_pending_eq_nil (hpending.trans hnil)]
    · have hbatch : m.batch (m.pending x.1).reverse (m.clear x.1) = _ :=
        batch_watched (m.pending x.1).reverse (m.watched.clear x)
      have hnilWatched : m.watched.pending x ≠ [] := hpending ▸ hnil
      by_cases hhalt : (m.batch (m.pending x.1).reverse (m.clear x.1)).2 = none
      · rw [rounds_of_run hnil hhalt, hbatch, rounds_of_run hnilWatched]
        · exact ih _
        · exact (congrArg Prod.snd hbatch).symm.trans hhalt
      · rw [rounds_of_halt hnil hhalt, hbatch, rounds_of_halt hnilWatched]
        · rfl
        · exact fun hnone => hhalt ((congrArg Prod.snd hbatch).trans hnone)

/-- Watching changes nothing. -/
theorem close_watched (x : σ × List (Cleanup × σ)) :
    m.close x.1 = ((m.watched.close x).1.1, (m.watched.close x).2) := rounds_watched _ x

theorem closeAgain_watched (n : Nat) (x : σ × List (Cleanup × σ)) :
    m.closeAgain n x.1 = ((m.watched.closeAgain n x).1.1, (m.watched.closeAgain n x).2) := by
  induction n generalizing x with
  | zero => exact close_watched x
  | succ n ih =>
    have hclose := close_watched (m := m) x
    have hhalt := congrArg Prod.snd hclose
    by_cases hnone : (m.close x.1).2 = none
    · rw [closeAgain_of_close hnone, closeAgain_of_close (hhalt.symm.trans hnone), hclose]
    · rw [closeAgain_of_halt hnone, closeAgain_of_halt (fun h => hnone (hhalt.trans h)), hclose, ih]

end Watched

section Keeping

variable {P : σ → Prop} (hclear : ∀ s, P s → P (m.clear s)) (hrun : ∀ c s, P s → P (m.run c s).1)

include hrun

private theorem batch_keeps {cs : List Cleanup} (h : P s) : P (m.batch cs s).1 := by
  induction cs generalizing s with
  | nil => exact h
  | cons c rest ih =>
    by_cases hnone : (m.run c s).2 = none
    · rw [batch_of_run hnone]
      exact ih (hrun c s h)
    · rw [batch_of_halt hnone]
      exact hrun c s h

include hclear

private theorem rounds_keeps {n : Nat} (h : P s) : P (m.rounds n s).1 := by
  induction n generalizing s with
  | zero => exact h
  | succ n ih =>
    by_cases hnil : m.pending s = []
    · rwa [rounds_of_pending_eq_nil hnil]
    · have hnext : P (m.batch (m.pending s).reverse (m.clear s)).1 := batch_keeps hrun (hclear s h)
      by_cases hnone : (m.batch (m.pending s).reverse (m.clear s)).2 = none
      · rw [rounds_of_run hnil hnone]
        exact ih hnext
      · rwa [rounds_of_halt hnil hnone]

/-- Closing keeps what taking cleanups out and running one of them keeps. -/
theorem close_keeps (h : P s) : P (m.close s).1 := rounds_keeps hclear hrun h

end Keeping

/-- Closing without cleanups does nothing. -/
theorem close_of_pending_eq_nil (h : m.pending s = []) : m.close s = (s, none) ∧ m.order s = [] := by
  have hnil : m.watched.pending (s, []) = [] := h
  refine ⟨rounds_of_pending_eq_nil h _, ?_⟩
  rw [order, runs, close, rounds_of_pending_eq_nil hnil]
  rfl

/-- What is reported in the end is what was reported before, then what the cleanups report in the order in which they
    are run. -/
theorem close_reports {α : Type} (f : σ → List α) (g : Cleanup → σ → List α) (hclear : ∀ s, f (m.clear s) = f s)
    (hrun : ∀ c s, f (m.run c s).1 = f s ++ g c s) (s : σ) :
    f (m.close s).1 = f s ++ (m.runs s).flatMap fun x => g x.1 x.2 := by
  let P : σ × List (Cleanup × σ) → Prop := fun x => f x.1 = f s ++ x.2.flatMap fun x => g x.1 x.2
  have hstep : ∀ c x, P x → P (m.watched.run c x).1 := by
    intro c x hx
    change f (m.run c x.1).1 = f s ++ (x.2 ++ [(c, x.1)]).flatMap _
    rw [hrun, List.flatMap_append, ← List.append_assoc, show f x.1 = _ from hx]
    simp
  have hkept : P (m.watched.close (s, [])).1 :=
    close_keeps (fun x hx => (hclear x.1).trans hx) hstep (List.append_nil _).symm
  rw [close_watched (m := m) (s, [])]
  exact hkept

/-- Cleanups do what they are made of: they register the cleanups in them, and halt the test if they are to. -/
structure IsFaithful (m : Closing σ) : Prop where
  pending_clear : ∀ s, m.pending (m.clear s) = []
  pending_run : ∀ c s, m.pending (m.run c s).1 = m.pending s ++ c.nested
  halts_run : ∀ c s, (m.run c s).2.isSome = c.halts

/-- What closing comes to: all generations in front of `last` are run, and of `last` what stands in front of a halt
    together with what halts. -/
structure ClosedWith (pending order left : List Cleanup) (halted : Bool) (earlier last : List Cleanup) : Prop where
  generations : Generations pending earlier last
  calm : ∀ c ∈ earlier, c.halts = false
  order_eq : order = earlier ++ untilHalt last.reverse
  left_eq : left = nestedAll (untilHalt last.reverse)
  halted_eq : halted = last.any halts
  complete : halted = false → last = []

/-- What closing again and again comes to, when `lost` was dropped on the way: the rest is run, and this is all if each
    generation is halted by its first cleanup at most. -/
structure ClosedAgain (pending order lost : List Cleanup) : Prop where
  perm : (membersAll pending).Perm (order ++ membersAll lost)
  lost_eq_nil_iff : lost = [] ↔ OnlyFirstHalts pending
  generations : lost = [] → Generations pending order []

/-- All is run where nothing was dropped. -/
theorem ClosedAgain.perm_iff {pending order lost : List Cleanup} (h : ClosedAgain pending order lost) :
    order.Perm (membersAll pending) ↔ OnlyFirstHalts pending := by
  rw [← h.lost_eq_nil_iff]
  constructor
  · intro hall
    have hlength := (hall.trans h.perm).length_eq
    rw [List.length_append] at hlength
    exact membersAll_eq_nil_iff.mp (List.length_eq_zero_iff.mp (by omega))
  · rintro rfl
    simpa [membersAll] using h.perm.symm

namespace ClosedWith

variable {pending order left earlier last : List Cleanup} {halted : Bool}

theorem nil : ClosedWith [] [] [] false [] [] := ⟨.here [], by simp, rfl, rfl, rfl, fun _ => rfl⟩

/-- A generation that halts the test is the last one. -/
theorem of_halt (h : pending.any halts = true) :
    ClosedWith pending (untilHalt pending.reverse) (nestedAll (untilHalt pending.reverse)) true [] pending :=
  ⟨.here pending, by simp, rfl, rfl, h.symm, fun hfalse => by cases hfalse⟩

/-- A generation that does not halt the test stands in front of the others. -/
theorem next (hne : pending ≠ []) (hcalm : ∀ c ∈ pending, c.halts = false)
    (h : ClosedWith (nestedAll pending.reverse) order left halted earlier last) :
    ClosedWith pending (pending.reverse ++ order) left halted (pending.reverse ++ earlier) last where
  generations := .next hne h.generations
  calm := List.forall_mem_append.mpr ⟨fun c hc => hcalm c (List.mem_reverse.mp hc), h.calm⟩
  order_eq := by rw [h.order_eq, List.append_assoc]
  left_eq := h.left_eq
  halted_eq := h.halted_eq
  complete := h.complete

/-- What stands behind the halt is dropped: it was taken out to be run, and is neither run nor left to be run. -/
theorem registered (h : ClosedWith pending order left halted earlier last) :
    (pending ++ nestedAll order).Perm (order ++ behindHalt last.reverse ++ left) := by
  have hlast : last.Perm (untilHalt last.reverse ++ behindHalt last.reverse) := by
    rw [untilHalt_append_behindHalt]
    exact last.reverse_perm.symm
  rw [h.order_eq, h.left_eq, nestedAll_append, ← List.append_assoc]
  refine List.Perm.append_right _ (h.generations.registered.trans ?_)
  rw [List.append_assoc]
  exact hlast.append_left _

/-- All that the cleanups lead to is run, dropped or left to be run. -/
theorem perm (h : ClosedWith pending order left halted earlier last) :
    (membersAll pending).Perm (order ++ membersAll (behindHalt last.reverse) ++ membersAll left) := by
  have hlast : (membersAll last).Perm
      (membersAll (untilHalt last.reverse) ++ membersAll (behindHalt last.reverse)) := by
    rw [← membersAll_append, untilHalt_append_behindHalt]
    exact membersAll_perm last.reverse_perm.symm
  rw [h.order_eq, h.left_eq, List.append_assoc, List.append_assoc]
  refine (h.generations.perm.trans ((hlast.trans ?_).append_left earlier))
  refine ((membersAll_nested (untilHalt last.reverse)).append_right _).trans ?_
  rw [List.append_assoc]
  exact List.perm_append_comm.append_left _

/-- Nothing is dropped if the test is halted by the cleanup of its generation only that was registered first. -/
theorem dropped_eq_nil_iff : behindHalt last.reverse = [] ↔ ∀ c ∈ last.tail, c.halts = false := by
  rw [behindHalt_eq_nil_iff, List.dropLast_reverse]
  simp only [List.mem_reverse]

/-- Where nothing halts the test, nothing is left and nothing is dropped. -/
theorem of_complete (h : ClosedWith pending order left false earlier last) :
    left = [] ∧ OnlyFirstHalts pending ∧ Generations pending order [] := by
  obtain rfl := h.complete rfl
  have horder : order = earlier := by simp [h.order_eq, untilHalt]
  exact ⟨h.left_eq, (h.generations.onlyFirstHalts_iff h.calm).mpr onlyFirstHalts_nil, horder ▸ h.generations⟩

theorem last_ne_nil (h : ClosedWith pending order left true earlier last) : last ≠ [] := by
  rintro rfl
  cases h.halted_eq

theorem onlyFirstHalts_iff (h : ClosedWith pending order left true earlier last) :
    OnlyFirstHalts pending ↔ behindHalt last.reverse = [] ∧ OnlyFirstHalts left := by
  rw [h.generations.onlyFirstHalts_iff h.calm, Cleanup.onlyFirstHalts_iff h.last_ne_nil, dropped_eq_nil_iff, h.left_eq]
  refine and_congr_right fun hfirst => ?_
  rw [untilHalt_of_behindHalt (dropped_eq_nil_iff.mpr hfirst)]

/-- Where nothing is dropped, the next closing goes on with the next generation. -/
theorem generations_of_halt {more : List Cleanup} (h : ClosedWith pending order left true earlier last)
    (hkept : behindHalt last.reverse = []) (hmore : Generations left more []) :
    Generations pending (order ++ more) [] := by
  rw [h.left_eq, untilHalt_of_behindHalt hkept] at hmore
  rw [h.order_eq, untilHalt_of_behindHalt hkept, List.append_assoc]
  exact h.generations.trans (.next h.last_ne_nil hmore)

/-- Where nothing halts the test, all is run and nothing is left. -/
theorem of_calm (h : ClosedWith pending order left halted earlier last)
    (hcalm : ∀ c ∈ membersAll pending, c.halts = false) :
    halted = false ∧ left = [] ∧ Generations pending order [] ∧ order.Perm (membersAll pending) := by
  have hlast : ∀ c ∈ last, c.halts = false := fun c hc =>
    hcalm c (h.generations.perm.mem_iff.mpr (List.mem_append_right _ (mem_membersAll hc)))
  obtain rfl : halted = false := by
    rw [h.halted_eq, List.any_eq_false]
    exact fun c hc => by simp [hlast c hc]
  obtain ⟨hleft, _, hgenerations⟩ := h.of_complete
  have hperm := hgenerations.perm
  rw [membersAll, List.append_nil] at hperm
  exact ⟨rfl, hleft, hgenerations, hperm.symm⟩

/-- A halted closing, and then others. -/
theorem again {more lost : List Cleanup} (h : ClosedWith pending order left true earlier last)
    (hagain : ClosedAgain left more lost) :
    ClosedAgain pending (order ++ more) (behindHalt last.reverse ++ lost) where
  perm := by
    refine h.perm.trans ?_
    rw [membersAll_append, List.append_assoc, List.append_assoc]
    exact ((hagain.perm.append_left _).trans (List.perm_append_comm_assoc _ _ _)).append_left order
  lost_eq_nil_iff := by rw [h.onlyFirstHalts_iff, ← hagain.lost_eq_nil_iff, List.append_eq_nil_iff]
  generations hnil := by
    obtain ⟨hkept, hlost⟩ := List.append_eq_nil_iff.mp hnil
    exact h.generations_of_halt hkept (hagain.generations hlost)

/-- A closing that is halted runs one cleanup that halts the test. -/
theorem countP_order (h : ClosedWith pending order left halted earlier last) :
    order.countP halts = if halted then 1 else 0 := by
  have hearlier : earlier.countP halts = 0 := List.countP_eq_zero.mpr fun c hc => by simp [h.calm c hc]
  rw [h.order_eq, List.countP_append, hearlier, Nat.zero_add, countP_untilHalt, List.any_reverse, h.halted_eq]

end ClosedWith

namespace IsFaithful

theorem watched (h : m.IsFaithful) : m.watched.IsFaithful :=
  ⟨fun x => h.pending_clear x.1, fun c x => h.pending_run c x.1, fun c x => h.halts_run c x.1⟩

theorem batch (h : m.IsFaithful) (cs : List Cleanup) (x : σ × List (Cleanup × σ)) :
    m.pending (m.watched.batch cs x).1.1 = m.pending x.1 ++ nestedAll (untilHalt cs) ∧
      (m.watched.batch cs x).1.2.map (·.1) = x.2.map (·.1) ++ untilHalt cs ∧
      (m.watched.batch cs x).2.isSome = cs.any halts := by
  induction cs generalizing x with
  | nil => exact ⟨(List.append_nil _).symm, (List.append_nil _).symm, rfl⟩
  | cons c rest ih =>
    have hpending : m.pending (m.watched.run c x).1.1 = m.pending x.1 ++ c.nested := h.pending_run c x.1
    have hkept : (m.watched.run c x).1.2.map (·.1) = x.2.map (·.1) ++ [c] := List.map_append
    have hhalts := h.watched.halts_run c x
    by_cases hnone : (m.watched.run c x).2 = none
    · have hc : c.halts = false := by rw [← hhalts, hnone]; rfl
      have hbatch : untilHalt (c :: rest) = c :: untilHalt rest := by simp [untilHalt, hc]
      have hnested : nestedAll (c :: untilHalt rest) = c.nested ++ nestedAll (untilHalt rest) := rfl
      obtain ⟨hleft, horder, hhalted⟩ := ih (m.watched.run c x).1
      rw [batch_of_run hnone, hbatch, hnested, hleft, horder, hhalted, hpending, hkept]
      simp [hc]
    · have hc : c.halts = true := by rw [← hhalts]; exact Option.isSome_iff_ne_none.mpr hnone
      have hbatch : untilHalt (c :: rest) = [c] := by simp [untilHalt, hc]
      have hnested : nestedAll [c] = c.nested := List.append_nil _
      rw [batch_of_halt hnone, hbatch, hnested, hpending, hkept, hhalts]
      simp [hc]

theorem rounds (h : m.IsFaithful) (n : Nat) (x : σ × List (Cleanup × σ)) (hn : sizeAll (m.pending x.1) ≤ n) :
    ∃ order earlier last, (m.watched.rounds n x).1.2.map (·.1) = x.2.map (·.1) ++ order ∧
      ClosedWith (m.pending x.1) order (m.pending (m.watched.rounds n x).1.1) (m.watched.rounds n x).2.isSome
        earlier last := by
  induction n generalizing x with
  | zero =>
    have hnil : m.pending x.1 = [] := by
      rw [← membersAll_eq_nil_iff, ← List.length_eq_zero_iff, length_membersAll]
      exact Nat.le_zero.mp hn
    refine ⟨[], [], [], (List.append_nil _).symm, ?_⟩
    rw [rounds_of_pending_eq_nil (m := m.watched) hnil, hnil]
    exact .nil
  | succ n ih =>
    by_cases hnil : m.pending x.1 = []
    · refine ⟨[], [], [], ?_, ?_⟩
      · rw [rounds_of_pending_eq_nil (m := m.watched) hnil, List.append_nil]
      · rw [rounds_of_pending_eq_nil (m := m.watched) hnil, hnil]
        exact .nil
    · obtain ⟨hleft, horder, hhalted⟩ := h.batch (m.pending x.1).reverse (m.watched.clear x)
      have hclear : m.pending (m.watched.clear x).1 = [] := h.pending_clear x.1
      have hkept : (m.watched.clear x).2 = x.2 := rfl
      rw [hclear, List.nil_append] at hleft
      rw [hkept] at horder
      rw [List.any_reverse] at hhalted
      have hpending : m.watched.pending x = m.pending x.1 := rfl
      have hne : m.watched.pending x ≠ [] := hnil
      by_cases hnone : (m.watched.batch (m.watched.pending x).reverse (m.watched.clear x)).2 = none
      · rw [rounds_of_run hne hnone, hpending]
        rw [hpending] at hnone
        have hcalm : ∀ c ∈ m.pending x.1, c.halts = false := by
          rw [hnone] at hhalted
          simpa using hhalted.symm
        rw [untilHalt_of_calm fun c hc => hcalm c (List.mem_reverse.mp hc)] at hleft horder
        have hless : sizeAll (nestedAll (m.pending x.1).reverse) ≤ n := by
          have hlength := List.length_pos_iff.mpr hnil
          rw [sizeAll_reverse] at hn
          omega
        obtain ⟨order, earlier, last, hmore, hclosed⟩ := ih _ (hleft ▸ hless)
        rw [hleft] at hclosed
        refine ⟨(m.pending x.1).reverse ++ order, _, last, ?_, hclosed.next hnil hcalm⟩
        rw [hmore, horder, List.append_assoc]
      · rw [rounds_of_halt hne hnone, hpending]
        rw [hpending] at hnone
        have hhalt : (m.pending x.1).any halts = true := by
          rw [← hhalted]
          exact Option.isSome_iff_ne_none.mpr hnone
        refine ⟨_, [], m.pending x.1, horder, ?_⟩
        rw [hleft, hhalted, hhalt]
        exact .of_halt hhalt

/-- Closing runs generation by generation, until all is run or the test is halted. -/
theorem close_watched (h : m.IsFaithful) (x : σ × List (Cleanup × σ)) :
    ∃ order earlier last, (m.watched.close x).1.2.map (·.1) = x.2.map (·.1) ++ order ∧
      ClosedWith (m.pending x.1) order (m.pending (m.watched.close x).1.1) (m.watched.close x).2.isSome
        earlier last := h.rounds _ x (Nat.le_refl _)

theorem close (h : m.IsFaithful) (s : σ) :
    ∃ earlier last,
      ClosedWith (m.pending s) (m.order s) (m.pending (m.close s).1) (m.close s).2.isSome earlier last := by
  obtain ⟨order, earlier, last, horder, hclosed⟩ := h.close_watched (s, [])
  obtain rfl : m.order s = order := horder
  refine ⟨earlier, last, ?_⟩
  rw [Closing.close_watched (m := m) (s, [])]
  exact hclosed

/-- Closing that is not halted ends the closing again. -/
theorem ended (h : m.IsFaithful) {x : σ × List (Cleanup × σ)} (hnone : (m.watched.close x).2 = none) (n : Nat) :
    ∃ order, (m.watched.closeAgain n x).1.2.map (·.1) = x.2.map (·.1) ++ order ∧
      (m.watched.closeAgain n x).2 = none ∧ m.pending (m.watched.closeAgain n x).1.1 = [] ∧
      ClosedAgain (m.pending x.1) order [] := by
  obtain ⟨order, earlier, last, horder, hclosed⟩ := h.close_watched x
  rw [hnone] at hclosed
  obtain ⟨hleft, honly, hgenerations⟩ := hclosed.of_complete
  rw [closeAgain_of_close hnone]
  exact ⟨order, horder, hnone, hleft, hgenerations.perm, iff_of_true rfl honly, fun _ => hgenerations⟩

/-- Closing again as often as there are cleanups that halt the test ends without a halt. -/
theorem closeAgain_watched (h : m.IsFaithful) (n : Nat) (x : σ × List (Cleanup × σ))
    (hn : (membersAll (m.pending x.1)).countP halts ≤ n) :
    ∃ order lost, (m.watched.closeAgain n x).1.2.map (·.1) = x.2.map (·.1) ++ order ∧
      (m.watched.closeAgain n x).2 = none ∧ m.pending (m.watched.closeAgain n x).1.1 = [] ∧
      ClosedAgain (m.pending x.1) order lost := by
  induction n generalizing x with
  | zero =>
    obtain ⟨order, earlier, last, horder, hclosed⟩ := h.close_watched x
    have hnone : (m.watched.close x).2 = none := by
      have hcount := hclosed.perm.countP_eq halts
      rw [List.countP_append, List.countP_append, hclosed.countP_order] at hcount
      by_contra hhalt
      rw [if_pos (Option.isSome_iff_ne_none.mpr hhalt)] at hcount
      omega
    obtain ⟨order, hended⟩ := h.ended hnone 0
    exact ⟨order, [], hended⟩
  | succ n ih =>
    by_cases hnone : (m.watched.close x).2 = none
    · obtain ⟨order, hended⟩ := h.ended hnone (n + 1)
      exact ⟨order, [], hended⟩
    · obtain ⟨order, earlier, last, horder, hclosed⟩ := h.close_watched x
      rw [closeAgain_of_halt hnone]
      rw [Option.isSome_iff_ne_none.mpr hnone] at hclosed
      -- the cleanup that halts this closing is one fewer for the next ones
      have hcount := hclosed.perm.countP_eq halts
      rw [List.countP_append, List.countP_append, hclosed.countP_order, if_pos rfl] at hcount
      obtain ⟨more, lost, hmore, hend, hempty, hagain⟩ := ih (m.watched.close x).1 (by omega)
      refine ⟨order ++ more, behindHalt last.reverse ++ lost, ?_, hend, hempty, hclosed.again hagain⟩
      rw [hmore, horder, List.append_assoc]

theorem closeAgain (h : m.IsFaithful) (n : Nat) (s : σ) (hn : (membersAll (m.pending s)).countP halts ≤ n) :
    (m.closeAgain n s).2 = none ∧ m.pending (m.closeAgain n s).1 = [] ∧
      ∃ lost, ClosedAgain (m.pending s) (m.orderAgain n s) lost := by
  obtain ⟨order, lost, horder, hend, hempty, hagain⟩ := h.closeAgain_watched n (s, []) hn
  obtain rfl : m.orderAgain n s = order := horder
  rw [Closing.closeAgain_watched (m := m) n (s, [])]
  exact ⟨hend, hempty, lost, hagain⟩

end IsFaithful

end TraitMock.Closing
