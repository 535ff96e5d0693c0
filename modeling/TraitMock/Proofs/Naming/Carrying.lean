import TraitMock.Proofs.Naming.Meaning

namespace TraitMock.Modules

variable {externs : String → Option CrateId} {s : Scope} {dst : Package} {child : String} {imports : List Import}

theorem relativeNames_contains {name : String} :
    relativeNames.contains name = true ↔ name = "crate" ∨ name = "self" ∨ name = "super" := by
  simp [relativeNames]

namespace Scope

theorem route_crate {path : String} {rest : List String} (h : Text.segments path = "crate" :: rest) :
    s.route path = .ok (.inside rest) := by
  simp [route, h]

theorem route_self {path : String} {rest : List String} (h : Text.segments path = "self" :: rest) :
    s.route path = .ok (.inside (s.package.modulePath ++ rest)) := by
  simp [route, h]

/-- A path of which the first segment is no keyword leads into a module that is declared, or into another crate. -/
theorem route_of_not_relative {path first : String} {rest : List String} (h : Text.segments path = first :: rest)
    (hfirst : relativeNames.contains first = false) :
    s.route path =
      .ok (if s.children.contains first then .inside (s.package.modulePath ++ first :: rest) else .outside path) := by
  have hcrate : first ≠ "crate" := fun heq => by simp [heq, relativeNames] at hfirst
  have hself : first ≠ "self" := fun heq => by simp [heq, relativeNames] at hfirst
  have hsuper : first ≠ "super" := fun heq => by simp [heq, relativeNames] at hfirst
  unfold route
  rw [h]
  simp only [List.head?_cons]

private theorem takeWhile_length_le {p : String → Bool} {last : String} (hlast : p last = false) (front : List String) :
    ((front ++ [last]).takeWhile p).length ≤ front.length := by
  induction front with
  | nil => simp [hlast]
  | cons first front ih =>
    rw [List.cons_append, List.takeWhile_cons]
    split
    · simpa using ih
    · simp

/-- What a route inside the crate consists of: names of the module that it begins in, and the end of the path. -/
theorem route_inside {path : String} {segs : List String} (h : s.route path = .ok (.inside segs)) :
    ∃ n k, segs = s.package.modulePath.take n ++ (Text.segments path).drop k ∧
      ∀ front last, Text.segments path = front ++ [last] → relativeNames.contains last = false → k ≤ front.length := by
  obtain ⟨first, rest, hsegs⟩ := List.exists_cons_of_ne_nil (Text.segments_ne_nil path)
  have hshort : ∀ k front last, Text.segments path = front ++ [last] → relativeNames.contains last = false →
      (k = 1 → relativeNames.contains first = true) → k ≤ 1 → k ≤ front.length := by
    intro k front last hpath hlast hkeyword hk
    cases front with
    | nil =>
      obtain ⟨rfl, _⟩ : first = last ∧ rest = [] := by simpa [hsegs] using hpath
      have hzero : k ≠ 1 := fun heq => by
        have hcontains := hkeyword heq
        rw [hlast] at hcontains
        cases hcontains
      simp only [List.length_nil]
      omega
    | cons _ front => simp only [List.length_cons]; omega
  cases hfirst : relativeNames.contains first with
  | false =>
    rw [route_of_not_relative hsegs hfirst] at h
    split at h
    · obtain rfl := by simpa using h
      exact ⟨s.package.modulePath.length, 0, by simp [hsegs], fun _ _ _ _ => Nat.zero_le _⟩
    · simp at h
  | true =>
    rcases relativeNames_contains.mp hfirst with rfl | rfl | rfl
    · rw [route_crate hsegs] at h
      obtain rfl := by simpa using h
      refine ⟨0, 1, by simp [hsegs], fun front last hpath hlast => ?_⟩
      exact hshort 1 front last hpath hlast (fun _ => hfirst) (Nat.le_refl 1)
    · rw [route_self hsegs] at h
      obtain rfl := by simpa using h
      refine ⟨s.package.modulePath.length, 1, by simp [hsegs], fun front last hpath hlast => ?_⟩
      exact hshort 1 front last hpath hlast (fun _ => hfirst) (Nat.le_refl 1)
    · let ups := ((Text.segments path).takeWhile (· = "super")).length
      have hroute : s.route path =
          if ups > s.package.modulePath.length then .error (.invalidImport path s.package.spec)
          else .ok (.inside (s.package.modulePath.take (s.package.modulePath.length - ups) ++
            (Text.segments path).drop ups)) := by
        simp [route, hsegs, ups]
      rw [hroute] at h
      split at h
      · cases h
      · obtain rfl := by simpa using h
        refine ⟨_, ups, rfl, fun front last hpath hlast => ?_⟩
        have hnot : decide (last = "super") = false := by
          cases hsuper : decide (last = "super") with
          | false => rfl
          | true =>
            rw [of_decide_eq_true hsuper] at hlast
            cases hlast
        simpa [ups, hpath] using takeWhile_length_le hnot front

theorem isName_of_route {path : String} {segs : List String} (h : s.route path = .ok (.inside segs))
    (hpath : ∀ seg ∈ Text.segments path, Text.IsName seg)
    (hmodule : ∀ seg ∈ s.package.modulePath, Text.IsName seg) : ∀ seg ∈ segs, Text.IsName seg := by
  obtain ⟨n, k, rfl, _⟩ := route_inside h
  intro seg hseg
  rcases List.mem_append.mp hseg with hfront | hback
  · exact hmodule seg (List.mem_of_mem_take hfront)
  · exact hpath seg (List.mem_of_mem_drop hback)

/-- A route ends in the name that the path ends in. -/
theorem route_inside_last {path last : String} {segs front : List String} (h : s.route path = .ok (.inside segs))
    (hpath : Text.segments path = front ++ [last]) (hlast : relativeNames.contains last = false) :
    ∃ front', segs = front' ++ [last] := by
  obtain ⟨n, k, rfl, hle⟩ := route_inside h
  have hk := hle front last hpath hlast
  refine ⟨s.package.modulePath.take n ++ front.drop k, ?_⟩
  rw [hpath, List.drop_append_of_le_length hk, List.append_assoc]

theorem outside_of_route {path p : String} (h : s.route path = .ok (.outside p)) :
    p = path ∧ ∃ first rest, Text.segments path = first :: rest ∧ relativeNames.contains first = false := by
  obtain ⟨first, rest, hsegs⟩ := List.exists_cons_of_ne_nil (Text.segments_ne_nil path)
  cases hfirst : relativeNames.contains first with
  | false =>
    rw [route_of_not_relative hsegs hfirst] at h
    split at h
    · simp at h
    · refine ⟨by simpa using h.symm, first, rest, hsegs, hfirst⟩
  | true =>
    rcases relativeNames_contains.mp hfirst with rfl | rfl | rfl
    · simp [route_crate hsegs] at h
    · simp [route_self hsegs] at h
    · simp only [route, hsegs, List.head?_cons] at h
      split at h <;> simp at h

/-- A path that begins with a keyword or with a module that is declared does not lead into another crate. -/
theorem route_ne_outside {path first p : String} {rest : List String} (hsegs : Text.segments path = first :: rest)
    (hinside : relativeNames.contains first = true ∨ s.children.contains first = true) :
    s.route path ≠ .ok (.outside p) := by
  intro hroute
  obtain ⟨_, first', rest', hsegs', hfirst⟩ := outside_of_route hroute
  obtain ⟨rfl, rfl⟩ : first = first' ∧ rest = rest' := by simpa [hsegs] using hsegs'
  rw [route_of_not_relative hsegs hfirst] at hroute
  rcases hinside with hrelative | hchild
  · rw [hfirst] at hrelative
    cases hrelative
  · rw [if_pos hchild] at hroute
    cases hroute

/-- A path that can be written in another module leads inside the crate, and is written from its root there, or it
    leads into another crate, and stays as it is. -/
theorem pathFrom_cases {path path' : String} (h : s.pathFrom dst path = .ok path') :
    (∃ segs, s.route path = .ok (.inside segs) ∧ path' = s.pathInto dst segs) ∨
      (s.route path = .ok (.outside path) ∧ path' = path) := by
  unfold pathFrom at h
  cases hroute : s.route path with
  | error e =>
    rw [hroute] at h
    cases h
  | ok r =>
    rw [hroute] at h
    cases r with
    | inside segs => exact .inl ⟨segs, rfl, (Except.ok.inj h).symm⟩
    | outside p =>
      obtain ⟨rfl, _⟩ := outside_of_route hroute
      exact .inr ⟨rfl, (Except.ok.inj h).symm⟩

theorem carry_cases {i j : Import} (h : s.carry dst i = .ok j) :
    ∃ path, s.pathFrom dst i.path = .ok path ∧ j = { i with path := path } := by
  unfold carry at h
  cases hfrom : s.pathFrom dst i.path with
  | error e =>
    rw [hfrom] at h
    cases h
  | ok path =>
    rw [hfrom] at h
    exact ⟨path, rfl, (Except.ok.inj h).symm⟩

end Scope

/-- Another crate is known in the crate of the destination by its name. -/
def KnownFrom (externs : String → Option CrateId) (p dst : Package) : Prop :=
  p.sameCrate dst = false → IsProper p.crateName ∧ externs p.crateName = some p.crate

section

variable {p : Package}

/-- A path from the root of a crate is read in the file of a mock as it was written. -/
theorem routed?_rootFrom (hknown : KnownFrom externs p dst) {segs : List String}
    (hsegs : ∀ seg ∈ segs, Text.IsName seg) :
    (mockScope dst child imports).routed? externs (Text.joinPath (p.rootFrom dst :: segs)) =
      some (.item p.crate segs) := by
  unfold Package.rootFrom
  cases hsame : p.sameCrate dst with
  | true =>
    have hcrate : (mockScope dst child imports).package.crate = p.crate := (Package.sameCrate_iff.mp hsame).symm
    have hpath := Text.segments_joinPath_cons (show Text.IsName "crate" by decide) hsegs
    rw [if_pos rfl, Scope.routed?, Scope.route_crate hpath, hcrate]
    rfl
  | false =>
    obtain ⟨⟨hname, hproper⟩, hextern⟩ := hknown hsame
    have hpath := Text.segments_joinPath_cons hname hsegs
    have hroute : (mockScope dst child imports).route (Text.joinPath (p.crateName :: segs)) =
        .ok (.outside (Text.joinPath (p.crateName :: segs))) := by
      rw [Scope.route_of_not_relative hpath hproper]
      rfl
    rw [if_neg (by simp), Scope.routed?, hroute]
    change outside? externs (Text.segments (Text.joinPath (p.crateName :: segs))) = _
    rw [hpath, outside?, hextern]
    rfl

end

/-- A path of a module leads to the same place when it is written in the file of a mock. -/
theorem routed?_of_pathFrom (hknown : KnownFrom externs s.package dst) {path path' : String}
    (h : s.pathFrom dst path = .ok path') (hpath : ∀ seg ∈ Text.segments path, Text.IsName seg)
    (hmodule : ∀ seg ∈ s.package.modulePath, Text.IsName seg) :
    (mockScope dst child imports).routed? externs path' = s.routed? externs path := by
  rcases Scope.pathFrom_cases h with ⟨segs, hroute, rfl⟩ | ⟨hroute, rfl⟩
  · have hsegs := Scope.isName_of_route hroute hpath hmodule
    rw [Scope.pathInto, routed?_rootFrom hknown hsegs, Scope.routed?, hroute]
    rfl
  · obtain ⟨_, first, rest, hsegs, hfirst⟩ := Scope.outside_of_route hroute
    have hroute' : (mockScope dst child imports).route path' = .ok (.outside path') := by
      rw [Scope.route_of_not_relative hsegs hfirst]
      rfl
    rw [Scope.routed?, Scope.routed?, hroute, hroute']
    rfl

private theorem segments_of_name {i : Import} (hnew : i.newName = none)
    (hpath : ∀ seg ∈ Text.segments i.path, Text.IsName seg) : ∃ front, Text.segments i.path = front ++ [i.name] := by
  obtain ⟨front, last, hsegs⟩ : ∃ front last, Text.segments i.path = front ++ [last] :=
    ⟨_, _, (List.dropLast_concat_getLast (Text.segments_ne_nil i.path)).symm⟩
  have hlast : Text.IsName last := hpath last (by simp [hsegs])
  refine ⟨front, ?_⟩
  rw [hsegs, Import.name, hnew]
  simp only [Text.lastSegment_eq_of_segments hsegs hlast]

/-- An import that is carried binds the name that it bound before. -/
theorem name_of_carry {i j : Import} (h : s.carry dst i = .ok j) (hname : IsProper i.name)
    (hpath : ∀ seg ∈ Text.segments i.path, Text.IsName seg) : j.name = i.name := by
  obtain ⟨path', hfrom, rfl⟩ := Scope.carry_cases h
  cases hnew : i.newName with
  | some a => simp [Import.name, hnew]
  | none =>
    rcases Scope.pathFrom_cases hfrom with ⟨segs, hroute, rfl⟩ | ⟨_, rfl⟩
    · obtain ⟨front, hsegs⟩ := segments_of_name hnew hpath
      obtain ⟨front', rfl⟩ := Scope.route_inside_last hroute hsegs hname.2
      have hlast := Text.lastSegment_joinPath (s.package.rootFrom dst :: front') hname.1
      simpa [Import.name, hnew, Scope.pathInto] using hlast
    · simp only [Import.name, hnew]

end TraitMock.Modules
