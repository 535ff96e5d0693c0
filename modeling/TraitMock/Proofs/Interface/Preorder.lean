import Mathlib.Logic.Relation
import Mathlib.Tactic.Tauto

namespace TraitMock

variable {α : Type} {next : α → List α} {seen todo order : List α} {a b : α}

/-- The order in which a depth-first walk of `todo` meets elements, if it has seen some (the last one first). -/
inductive DepthFirst (next : α → List α) : (seen todo order : List α) → Prop where
  | done (seen : List α) : DepthFirst next seen [] []
  | again {a : α} {seen rest order : List α} (hseen : a ∈ seen) (hrest : DepthFirst next seen rest order) :
    DepthFirst next seen (a :: rest) order
  | fresh {a : α} {seen rest below after : List α} (hfresh : a ∉ seen)
    (hbelow : DepthFirst next (a :: seen) (next a) below)
    (hrest : DepthFirst next (below.reverse ++ a :: seen) rest after) :
    DepthFirst next seen (a :: rest) (a :: below ++ after)

/-- What an element leads to. -/
def LeadsTo (next : α → List α) : α → α → Prop := Relation.ReflTransGen fun a b => b ∈ next a

namespace DepthFirst

/-- There is one depth-first order. -/
theorem unique {order' : List α} (h : DepthFirst next seen todo order) (h' : DepthFirst next seen todo order') :
    order = order' := by
  induction h generalizing order' with
  | done => cases h'; rfl
  | again hseen _ ih =>
    cases h' with
    | again _ hrest' => exact ih hrest'
    | fresh hfresh' => exact absurd hseen hfresh'
  | fresh hfresh _ _ ihbelow ihrest =>
    cases h' with
    | again hseen' => exact absurd hseen' hfresh
    | fresh _ hbelow' hrest' =>
      obtain rfl := ihbelow hbelow'
      rw [ihrest hrest']

theorem of_seen (h : ∀ b ∈ todo, b ∈ seen) : DepthFirst next seen todo [] := by
  induction todo with
  | nil => exact .done seen
  | cons b rest ih => exact .again (h b List.mem_cons_self) (ih fun c hc => h c (List.mem_cons_of_mem _ hc))

/-- A walk goes on where another one ended. -/
theorem append {todo' order' : List α} (h : DepthFirst next seen todo order)
    (h' : DepthFirst next (order.reverse ++ seen) todo' order') :
    DepthFirst next seen (todo ++ todo') (order ++ order') := by
  induction h with
  | done => exact h'
  | again hseen _ ih => exact .again hseen (ih h')
  | fresh hfresh hbelow _ _ ihrest =>
    rw [List.append_assoc]
    exact .fresh hfresh hbelow (ihrest (by simpa using h'))

theorem not_mem_seen (h : DepthFirst next seen todo order) : ∀ b ∈ order, b ∉ seen := by
  induction h with
  | done => simp
  | again _ _ ih => exact ih
  | fresh hfresh _ _ ihbelow ihrest =>
    intro b hb hseen
    rcases List.mem_append.mp hb with hb | hb
    · rcases List.mem_cons.mp hb with rfl | hb
      · exact hfresh hseen
      · exact ihbelow b hb (List.mem_cons_of_mem _ hseen)
    · exact ihrest b hb (by simp [hseen])

theorem nodup (h : DepthFirst next seen todo order) : order.Nodup := by
  induction h with
  | done => exact List.nodup_nil
  | again _ _ ih => exact ih
  | @fresh a seen rest below after _ hbelow hrest ihbelow ihrest =>
    refine List.nodup_append.mpr ⟨List.nodup_cons.mpr ⟨fun ha => ?_, ihbelow⟩, ihrest, ?_⟩
    · exact hbelow.not_mem_seen a ha List.mem_cons_self
    · rintro b hb c hc rfl
      refine hrest.not_mem_seen b hc ?_
      rcases List.mem_cons.mp hb with rfl | hb
      · simp
      · simp [hb]

/-- A depth-first walk passes over nothing that it has not seen. -/
theorem todo_subset (h : DepthFirst next seen todo order) : ∀ b ∈ todo, b ∈ seen ∨ b ∈ order := by
  induction h with
  | done => simp
  | again hseen _ ih =>
    intro b hb
    rcases List.mem_cons.mp hb with rfl | hb
    · exact .inl hseen
    · exact ih b hb
  | fresh _ _ _ _ ihrest =>
    intro b hb
    rcases List.mem_cons.mp hb with rfl | hb
    · simp
    · have hrest := ihrest b hb
      simp only [List.mem_append, List.mem_reverse, List.mem_cons] at hrest ⊢
      tauto

/-- What the elements lead to directly was seen, or is met. -/
theorem closed (h : DepthFirst next seen todo order) : ∀ b ∈ order, ∀ c ∈ next b, c ∈ seen ∨ c ∈ order := by
  induction h with
  | done => simp
  | again _ _ ih => exact ih
  | fresh _ hbelow _ ihbelow ihrest =>
    intro b hb c hc
    simp only [List.mem_append, List.mem_cons] at hb
    rcases hb with (rfl | hb) | hb
    · have hcases := hbelow.todo_subset c hc
      simp only [List.mem_append, List.mem_cons] at hcases ⊢
      tauto
    · have hcases := ihbelow b hb c hc
      simp only [List.mem_append, List.mem_cons] at hcases ⊢
      tauto
    · have hcases := ihrest b hb c hc
      simp only [List.mem_append, List.mem_reverse, List.mem_cons] at hcases ⊢
      tauto

theorem reached (h : DepthFirst next seen todo order) : ∀ b ∈ order, ∃ a ∈ todo, LeadsTo next a b := by
  induction h with
  | done => simp
  | again _ _ ih =>
    intro b hb
    obtain ⟨a, ha, hleads⟩ := ih b hb
    exact ⟨a, List.mem_cons_of_mem _ ha, hleads⟩
  | @fresh a _ _ _ _ _ _ _ ihbelow ihrest =>
    intro b hb
    simp only [List.mem_append, List.mem_cons] at hb
    rcases hb with (rfl | hb) | hb
    · exact ⟨b, List.mem_cons_self, .refl⟩
    · obtain ⟨c, hc, hleads⟩ := ihbelow b hb
      exact ⟨a, List.mem_cons_self, .head hc hleads⟩
    · obtain ⟨c, hc, hleads⟩ := ihrest b hb
      exact ⟨c, List.mem_cons_of_mem _ hc, hleads⟩

/-- A depth-first order from an element on begins with it, and holds once each what it leads to. -/
theorem from_root (h : DepthFirst next [] [a] order) :
    order.head? = some a ∧ order.Nodup ∧ ∀ b, b ∈ order ↔ LeadsTo next a b := by
  refine ⟨?_, h.nodup, fun b => ⟨fun hb => ?_, fun hleads => ?_⟩⟩
  · cases h with
    | again hseen => exact absurd hseen List.not_mem_nil
    | fresh => rfl
  · obtain ⟨c, hc, hleads⟩ := h.reached b hb
    rwa [List.mem_singleton.mp hc] at hleads
  · induction hleads with
    | refl => simpa using h.todo_subset a List.mem_cons_self
    | tail _ hstep ih => simpa using h.closed _ ih _ hstep

end DepthFirst

end TraitMock
