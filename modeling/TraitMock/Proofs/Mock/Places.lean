import TraitMock.Mock.Session

namespace TraitMock.Session

/-- The place that an expectation has among those chosen by `p`. -/
def rank (p : Expectation → Bool) (expectations : List Expectation) (id : Nat) : Nat :=
  (expectations.take id).countP p

variable {p : Expectation → Bool} {expectations : List Expectation} {id j : Nat} {e e' : Expectation}

theorem getElem?_filter_rank (hfound : expectations[id]? = some e) (he : p e = true) :
    (expectations.filter p)[rank p expectations id]? = some e := by
  induction expectations generalizing id with
  | nil => simp at hfound
  | cons first rest ih =>
    cases id with
    | zero =>
      obtain rfl : first = e := by simpa using hfound
      simp [rank, he]
    | succ id =>
      have htail : rest[id]? = some e := by simpa using hfound
      have hrest := ih htail
      unfold rank at hrest ⊢
      cases hfirst : p first <;> simpa [hfirst] using hrest

theorem filter_set_rank (hfound : expectations[id]? = some e) (he : p e = true) (he' : p e' = true) :
    (expectations.set id e').filter p = (expectations.filter p).set (rank p expectations id) e' := by
  induction expectations generalizing id with
  | nil => simp at hfound
  | cons first rest ih =>
    cases id with
    | zero =>
      obtain rfl : first = e := by simpa using hfound
      simp [rank, he, he']
    | succ id =>
      have htail : rest[id]? = some e := by simpa using hfound
      have hrest := ih htail
      unfold rank at hrest ⊢
      cases hfirst : p first <;> simpa [hfirst] using hrest

theorem filter_set_of_not (hfound : expectations[id]? = some e) (he : p e = false) (he' : p e' = false) :
    (expectations.set id e').filter p = expectations.filter p := by
  induction expectations generalizing id with
  | nil => rfl
  | cons first rest ih =>
    cases id with
    | zero =>
      obtain rfl : first = e := by simpa using hfound
      simp [he, he']
    | succ id =>
      have htail : rest[id]? = some e := by simpa using hfound
      have hrest := ih htail
      simp only [List.set_cons_succ, List.filter_cons, hrest]

/-- The places depend on nothing but which expectations are chosen. -/
theorem rank_set (hfound : expectations[id]? = some e) (he : p e' = p e) (j : Nat) :
    rank p (expectations.set id e') j = rank p expectations j := by
  induction expectations generalizing id j with
  | nil => rfl
  | cons first rest ih =>
    cases j with
    | zero => rfl
    | succ j =>
      cases id with
      | zero =>
        obtain rfl : first = e := by simpa using hfound
        simp [rank, List.countP_cons, he]
      | succ id =>
        have htail : rest[id]? = some e := by simpa using hfound
        have hrest := ih htail j
        unfold rank at hrest ⊢
        simp only [List.set_cons_succ, List.take_succ_cons, List.countP_cons, hrest]

theorem rank_append (hle : id ≤ expectations.length) (later : List Expectation) :
    rank p (expectations ++ later) id = rank p expectations id := by
  rw [rank, List.take_append_of_le_length hle, rank]

theorem rank_length : rank p expectations expectations.length = (expectations.filter p).length := by
  rw [rank, List.take_length, List.countP_eq_length_filter]

theorem rank_filter (hle : id ≤ (expectations.filter p).length) : rank p (expectations.filter p) id = id := by
  have hall : ∀ e ∈ (expectations.filter p).take id, p e = true := by
    intro e he
    exact (List.mem_filter.mp (List.mem_of_mem_take he)).2
  rw [rank, List.countP_eq_length.mpr hall, List.length_take]
  omega

theorem rank_lt (hfound : expectations[id]? = some e) (he : p e = true) (hlt : id < j) :
    rank p expectations id < rank p expectations j := by
  obtain ⟨hid, rfl⟩ := List.getElem?_eq_some_iff.mp hfound
  have hnext : (expectations.take (id + 1)).countP p = rank p expectations id + 1 := by
    rw [List.take_succ_eq_append_getElem hid, List.countP_append, List.countP_singleton, if_pos he, rank]
  have hmono : (expectations.take (id + 1)).countP p ≤ rank p expectations j :=
    (List.take_sublist_take_left (by omega)).countP_le
  omega

theorem rank_inj (hfound : expectations[id]? = some e) (he : p e = true) (hfound' : expectations[j]? = some e')
    (he' : p e' = true) (hsame : rank p expectations id = rank p expectations j) : id = j := by
  rcases Nat.lt_trichotomy id j with hlt | heq | hgt
  · have hrank := rank_lt hfound he hlt
    omega
  · exact heq
  · have hrank := rank_lt hfound' he' hgt
    omega

end TraitMock.Session
