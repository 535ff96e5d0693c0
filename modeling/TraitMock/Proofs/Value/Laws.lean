import Mathlib.Tactic.Simproc.ExistsAndEq
import TraitMock.Value.DataType

namespace TraitMock

/-- An equality that holds in both orders and goes through a third content. It need not be reflexive: a number that is
    none differs from itself. -/
structure LawfulEquality (eq : Payload → Payload → Bool) : Prop where
  symm : ∀ {p q}, eq p q = true → eq q p = true
  trans : ∀ {p q r}, eq p q = true → eq q r = true → eq p r = true

theorem LawfulEquality.comm {eq : Payload → Payload → Bool} (h : LawfulEquality eq) (p q : Payload) :
    eq p q = eq q p :=
  Bool.eq_iff_iff.mpr ⟨h.symm, h.symm⟩

/-- The equality of a type, if it has one, is lawful. -/
def DataType.Lawful (t : DataType) : Prop := ∀ eq, t.equal? = some eq → LawfulEquality eq

namespace DataType

section Parts

variable {eq eq' : Payload → Payload → Bool}

private theorem lawful_plainEqual : LawfulEquality plainEqual where
  symm := by
    intro p q h
    cases p <;> cases q <;> simp_all [plainEqual]
  trans := by
    intro p q r h h'
    cases p <;> cases q <;> simp_all [plainEqual]

private theorem allEqual_symm (h : LawfulEquality eq) {as bs : List Payload} (heq : allEqual eq as bs = true) :
    allEqual eq bs as = true := by
  induction as generalizing bs with
  | nil => cases bs <;> simp_all [allEqual]
  | cons a as ih =>
    cases bs with
    | nil => simp [allEqual] at heq
    | cons b bs =>
      obtain ⟨hhead, htail⟩ := Bool.and_eq_true_iff.mp heq
      exact Bool.and_eq_true_iff.mpr ⟨h.symm hhead, ih htail⟩

private theorem allEqual_trans (h : LawfulEquality eq) {as bs cs : List Payload} (heq : allEqual eq as bs = true)
    (heq' : allEqual eq bs cs = true) : allEqual eq as cs = true := by
  induction as generalizing bs cs with
  | nil => cases bs <;> simp_all [allEqual]
  | cons a as ih =>
    cases bs with
    | nil => simp [allEqual] at heq
    | cons b bs =>
      cases cs with
      | nil => simp [allEqual] at heq'
      | cons c cs =>
        obtain ⟨hhead, htail⟩ := Bool.and_eq_true_iff.mp heq
        obtain ⟨hhead', htail'⟩ := Bool.and_eq_true_iff.mp heq'
        exact Bool.and_eq_true_iff.mpr ⟨h.trans hhead hhead', ih htail htail'⟩

theorem sequenceEqual_iff {p q : Payload} :
    sequenceEqual eq p q = true ↔ ∃ as bs, p = .parts as ∧ q = .parts bs ∧ allEqual eq as bs = true := by
  cases p <;> cases q <;> simp [sequenceEqual]

theorem lawful_sequenceEqual (h : LawfulEquality eq) : LawfulEquality (sequenceEqual eq) where
  symm := by
    intro p q heq
    obtain ⟨as, bs, rfl, rfl, hparts⟩ := sequenceEqual_iff.mp heq
    exact allEqual_symm h hparts
  trans := by
    intro p q r heq heq'
    obtain ⟨as, bs, rfl, rfl, hparts⟩ := sequenceEqual_iff.mp heq
    obtain ⟨_, cs, hbs, rfl, hparts'⟩ := sequenceEqual_iff.mp heq'
    obtain rfl := Payload.parts.inj hbs
    exact allEqual_trans h hparts hparts'

private theorem eachEqual_symm {eqs : List (Payload → Payload → Bool)} (h : ∀ eq ∈ eqs, LawfulEquality eq)
    {as bs : List Payload} (heq : eachEqual eqs as bs = true) : eachEqual eqs bs as = true := by
  induction eqs generalizing as bs with
  | nil => cases as <;> cases bs <;> simp_all [eachEqual]
  | cons eq eqs ih =>
    obtain ⟨hfirst, hrest⟩ := List.forall_mem_cons.mp h
    cases as with
    | nil => simp [eachEqual] at heq
    | cons a as =>
      cases bs with
      | nil => simp [eachEqual] at heq
      | cons b bs =>
        obtain ⟨hhead, htail⟩ := Bool.and_eq_true_iff.mp heq
        exact Bool.and_eq_true_iff.mpr ⟨hfirst.symm hhead, ih hrest htail⟩

private theorem eachEqual_trans {eqs : List (Payload → Payload → Bool)} (h : ∀ eq ∈ eqs, LawfulEquality eq)
    {as bs cs : List Payload} (heq : eachEqual eqs as bs = true) (heq' : eachEqual eqs bs cs = true) :
    eachEqual eqs as cs = true := by
  induction eqs generalizing as bs cs with
  | nil => cases as <;> cases bs <;> simp_all [eachEqual]
  | cons eq eqs ih =>
    obtain ⟨hfirst, hrest⟩ := List.forall_mem_cons.mp h
    cases as with
    | nil => simp [eachEqual] at heq
    | cons a as =>
      cases bs with
      | nil => simp [eachEqual] at heq
      | cons b bs =>
        cases cs with
        | nil => simp [eachEqual] at heq'
        | cons c cs =>
          obtain ⟨hhead, htail⟩ := Bool.and_eq_true_iff.mp heq
          obtain ⟨hhead', htail'⟩ := Bool.and_eq_true_iff.mp heq'
          exact Bool.and_eq_true_iff.mpr ⟨hfirst.trans hhead hhead', ih hrest htail htail'⟩

theorem partsEqual_iff {eqs : List (Payload → Payload → Bool)} {p q : Payload} :
    partsEqual eqs p q = true ↔ ∃ as bs, p = .parts as ∧ q = .parts bs ∧ eachEqual eqs as bs = true := by
  cases p <;> cases q <;> simp [partsEqual]

theorem lawful_partsEqual {eqs : List (Payload → Payload → Bool)} (h : ∀ eq ∈ eqs, LawfulEquality eq) :
    LawfulEquality (partsEqual eqs) where
  symm := by
    intro p q heq
    obtain ⟨as, bs, rfl, rfl, hparts⟩ := partsEqual_iff.mp heq
    exact eachEqual_symm h hparts
  trans := by
    intro p q r heq heq'
    obtain ⟨as, bs, rfl, rfl, hparts⟩ := partsEqual_iff.mp heq
    obtain ⟨_, cs, hbs, rfl, hparts'⟩ := partsEqual_iff.mp heq'
    obtain rfl := Payload.parts.inj hbs
    exact eachEqual_trans h hparts hparts'

private theorem lawful_entriesEqual (h : LawfulEquality eq) (h' : LawfulEquality eq') :
    LawfulEquality (entriesEqual eq eq') := by
  have heq : entriesEqual eq eq' = sequenceEqual (partsEqual [eq, eq']) := by
    funext p q
    cases p <;> cases q <;> rfl
  rw [heq]
  exact lawful_sequenceEqual (lawful_partsEqual (by simp [h, h']))

theorem optionEqual_iff {p q : Payload} :
    optionEqual eq p q = true ↔
      p = .choice "None" [] ∧ q = .choice "None" [] ∨
        ∃ a b, p = .choice "Some" [a] ∧ q = .choice "Some" [b] ∧ eq a b = true := by
  unfold optionEqual
  split <;> simp_all

private theorem lawful_optionEqual (h : LawfulEquality eq) : LawfulEquality (optionEqual eq) where
  symm := by
    intro p q heq
    rcases optionEqual_iff.mp heq with ⟨rfl, rfl⟩ | ⟨a, b, rfl, rfl, hvalue⟩
    · exact heq
    · exact h.symm hvalue
  trans := by
    intro p q r heq heq'
    rcases optionEqual_iff.mp heq with ⟨rfl, rfl⟩ | ⟨a, b, rfl, rfl, hvalue⟩
    · exact heq'
    · rcases optionEqual_iff.mp heq' with ⟨hnone, _⟩ | ⟨_, c, hb, rfl, hvalue'⟩
      · simp at hnone
      · obtain rfl : b = _ := by simpa using hb
        exact h.trans hvalue hvalue'

theorem resultEqual_iff {p q : Payload} :
    resultEqual eq eq' p q = true ↔
      (∃ a b, p = .choice "Ok" [a] ∧ q = .choice "Ok" [b] ∧ eq a b = true) ∨
        ∃ a b, p = .choice "Err" [a] ∧ q = .choice "Err" [b] ∧ eq' a b = true := by
  unfold resultEqual
  split <;> simp_all

private theorem lawful_resultEqual (h : LawfulEquality eq) (h' : LawfulEquality eq') :
    LawfulEquality (resultEqual eq eq') where
  symm := by
    intro p q heq
    rcases resultEqual_iff.mp heq with ⟨a, b, rfl, rfl, hvalue⟩ | ⟨a, b, rfl, rfl, hvalue⟩
    · exact h.symm hvalue
    · exact h'.symm hvalue
  trans := by
    intro p q r heq heq'
    rcases resultEqual_iff.mp heq with ⟨a, b, rfl, rfl, hvalue⟩ | ⟨a, b, rfl, rfl, hvalue⟩
    · rcases resultEqual_iff.mp heq' with ⟨_, c, hb, rfl, hvalue'⟩ | ⟨_, _, hb, _⟩
      · obtain rfl : b = _ := by simpa using hb
        exact h.trans hvalue hvalue'
      · simp at hb
    · rcases resultEqual_iff.mp heq' with ⟨_, _, hb, _⟩ | ⟨_, c, hb, rfl, hvalue'⟩
      · simp at hb
      · obtain rfl : b = _ := by simpa using hb
        exact h'.trans hvalue hvalue'

theorem sharedEqual_iff {p q : Payload} :
    sharedEqual eq p q = true ↔ ∃ x a y b, p = .shared x a ∧ q = .shared y b ∧ eq a b = true := by
  cases p <;> cases q <;> simp [sharedEqual]

private theorem lawful_sharedEqual (h : LawfulEquality eq) : LawfulEquality (sharedEqual eq) where
  symm := by
    intro p q heq
    obtain ⟨x, a, y, b, rfl, rfl, hcontent⟩ := sharedEqual_iff.mp heq
    exact h.symm hcontent
  trans := by
    intro p q r heq heq'
    obtain ⟨x, a, y, b, rfl, rfl, hcontent⟩ := sharedEqual_iff.mp heq
    obtain ⟨_, _, z, c, hb, rfl, hcontent'⟩ := sharedEqual_iff.mp heq'
    obtain ⟨rfl, rfl⟩ := Payload.shared.inj hb
    exact h.trans hcontent hcontent'

end Parts

section Types

variable {t u v : DataType}

theorem lawful_of_plainEqual (h : t.equal? = some plainEqual) : t.Lawful := by
  rintro eq heq
  obtain rfl := Option.some.inj (h.symm.trans heq)
  exact lawful_plainEqual

private theorem lawful_of_incomparable (h : t.equal? = none) : t.Lawful := by
  intro eq heq
  rw [h] at heq
  cases heq

/-- A type whose equality is made from that of one part, lawfully. -/
theorem Lawful.of_map {f : (Payload → Payload → Bool) → Payload → Payload → Bool} (ht : t.Lawful)
    (hmap : u.equal? = t.equal?.map f) (hf : ∀ {eq}, LawfulEquality eq → LawfulEquality (f eq)) : u.Lawful := by
  intro eq heq
  obtain ⟨part, hpart, rfl⟩ := Option.map_eq_some_iff.mp (hmap.symm.trans heq)
  exact hf (ht part hpart)

private theorem Lawful.of_equal?_eq (ht : t.Lawful) (hequal : u.equal? = t.equal?) : u.Lawful := fun eq heq =>
  ht eq (hequal.symm.trans heq)

theorem Lawful.vec (h : t.Lawful) : (vec t).Lawful := h.of_map rfl lawful_sequenceEqual

theorem Lawful.array (h : t.Lawful) (length : Nat) : (array t length).Lawful := h.of_map rfl lawful_sequenceEqual

theorem Lawful.hashSet (h : t.Lawful) : (hashSet t).Lawful := h.of_map rfl lawful_sequenceEqual

theorem Lawful.box (h : t.Lawful) : (box t).Lawful := h.of_equal?_eq rfl

theorem Lawful.option (h : t.Lawful) : (option t).Lawful := h.of_map rfl lawful_optionEqual

theorem Lawful.shared (h : t.Lawful) : (shared t).Lawful := h.of_map rfl lawful_sharedEqual

theorem Lawful.result (h : t.Lawful) (h' : u.Lawful) : (result t u).Lawful := by
  intro eq heq
  obtain ⟨okEq, hok, heq⟩ := Option.bind_eq_some_iff.mp heq
  obtain ⟨errEq, herr, heq⟩ := Option.bind_eq_some_iff.mp heq
  obtain rfl := Option.some.inj heq
  exact lawful_resultEqual (h okEq hok) (h' errEq herr)

theorem Lawful.map (name : String) (h : t.Lawful) (h' : u.Lawful) : (map name t u).Lawful := by
  intro eq heq
  obtain ⟨keyEq, hkey, heq⟩ := Option.bind_eq_some_iff.mp heq
  obtain ⟨valueEq, hvalue, heq⟩ := Option.bind_eq_some_iff.mp heq
  obtain rfl := Option.some.inj heq
  exact lawful_entriesEqual (h keyEq hkey) (h' valueEq hvalue)

theorem lawful_equalities {ts : List DataType} (h : ∀ t ∈ ts, t.Lawful) {eqs : List (Payload → Payload → Bool)}
    (heqs : equalities? ts = some eqs) : ∀ eq ∈ eqs, LawfulEquality eq := by
  induction ts generalizing eqs with
  | nil =>
    obtain rfl : [] = eqs := Option.some.inj heqs
    simp
  | cons t ts ih =>
    obtain ⟨hfirst, hrest⟩ := List.forall_mem_cons.mp h
    simp only [equalities?, List.mapM_cons] at heqs
    obtain ⟨eq, heq, heqs⟩ := Option.bind_eq_some_iff.mp heqs
    obtain ⟨more, hmore, heqs⟩ := Option.bind_eq_some_iff.mp heqs
    obtain rfl := Option.some.inj heqs
    exact List.forall_mem_cons.mpr ⟨hfirst eq heq, ih hrest hmore⟩

theorem lawful_tuple {ts : List DataType} (h : ∀ t ∈ ts, t.Lawful) : (tuple ts).Lawful := by
  intro eq heq
  obtain ⟨eqs, heqs, rfl⟩ := Option.map_eq_some_iff.mp heq
  exact lawful_partsEqual (lawful_equalities h heqs)

theorem lawful_record {name : String} {fields : List (String × DataType)} {printable cloneable comparable : Bool}
    (h : ∀ f ∈ fields, f.2.Lawful) : (record name fields printable cloneable comparable).Lawful := by
  cases comparable with
  | false => exact lawful_of_incomparable rfl
  | true =>
    intro eq heq
    obtain ⟨eqs, heqs, rfl⟩ := Option.map_eq_some_iff.mp heq
    refine lawful_partsEqual (lawful_equalities (fun t ht => ?_) heqs)
    obtain ⟨f, hf, rfl⟩ := List.mem_map.mp ht
    exact h f hf

end Types

end DataType

end TraitMock
