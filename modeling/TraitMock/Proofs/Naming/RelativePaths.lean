import TraitMock.Proofs.Naming.Carrying

namespace TraitMock.Modules

section Reading

/-- The keywords at the front of a path that begins at a module or so many levels above it. -/
def keywords (fromSelf : Bool) (levels : Nat) : List String :=
  (if fromSelf then ["self"] else []) ++ List.replicate levels "super"

/-- Where a path leads that is written in a module, by its segments. -/
inductive LeadsTo (s : Scope) (path : String) : List String → Except GenerationError Route → Prop where
  /-- From the root of the crate. -/
  | root (rest : List String) : LeadsTo s path ("crate" :: rest) (.ok (.inside rest))
  /-- From the module, or from a module above it. -/
  | upward {fromSelf : Bool} {levels : Nat} {rest : List String} (hkeyword : fromSelf = true ∨ 0 < levels)
    (hrest : rest.head? ≠ some "super") (hlevels : levels ≤ s.package.modulePath.length) :
    LeadsTo s path (keywords fromSelf levels ++ rest)
      (.ok (.inside (s.package.modulePath.take (s.package.modulePath.length - levels) ++ rest)))
  /-- There is no module so many levels above. -/
  | tooFar {fromSelf : Bool} {levels : Nat} {rest : List String} (hrest : rest.head? ≠ some "super")
    (hlevels : s.package.modulePath.length < levels) :
    LeadsTo s path (keywords fromSelf levels ++ rest) (.error (.invalidImport path s.package.spec))
  /-- From a module that the module declares. -/
  | child {first : String} {rest : List String} (hfirst : relativeNames.contains first = false)
    (hchild : s.children.contains first = true) :
    LeadsTo s path (first :: rest) (.ok (.inside (s.package.modulePath ++ first :: rest)))
  /-- Into another crate. -/
  | outside {first : String} {rest : List String} (hfirst : relativeNames.contains first = false)
    (hchild : s.children.contains first = false) : LeadsTo s path (first :: rest) (.ok (.outside path))

/-- A path that goes up from the module itself. -/
def StartsAboveSelf (segs : List String) : Prop := ["self", "super"] <+: segs

instance : DecidablePred StartsAboveSelf := fun segs => inferInstanceAs (Decidable (["self", "super"] <+: segs))

theorem startsAboveSelf_keywords {levels : Nat} (hlevels : 0 < levels) (rest : List String) :
    StartsAboveSelf (keywords true levels ++ rest) := by
  obtain ⟨above, rfl⟩ := Nat.exists_eq_add_of_lt hlevels
  exact ⟨List.replicate above "super" ++ rest, by simp [keywords, List.replicate_succ]⟩

/-- Keywords are followed by a segment that is not `super`, at the latest by none. -/
theorem exists_keywords {first : String} (hfirst : first = "self" ∨ first = "super") (rest : List String) :
    ∃ fromSelf levels back, first :: rest = keywords fromSelf levels ++ back ∧ (fromSelf = true ∨ 0 < levels) ∧
      back.head? ≠ some "super" := by
  have hsupers : ∀ segs : List String, ∃ levels back, segs = List.replicate levels "super" ++ back ∧
      back.head? ≠ some "super" := by
    intro segs
    induction segs with
    | nil => exact ⟨0, [], rfl, by simp⟩
    | cons seg segs ih =>
      by_cases hseg : seg = "super"
      · obtain ⟨levels, back, hsegs, hback⟩ := ih
        exact ⟨levels + 1, back, by simp [hseg, hsegs, List.replicate_succ], hback⟩
      · exact ⟨0, seg :: segs, rfl, by simpa using hseg⟩
  obtain ⟨levels, back, hrest, hback⟩ := hsupers rest
  rcases hfirst with rfl | rfl
  · exact ⟨true, levels, back, by simp [keywords, hrest], .inl rfl, hback⟩
  · exact ⟨false, levels + 1, back, by simp [keywords, hrest, List.replicate_succ], .inr (by omega), hback⟩

end Reading

namespace Scope

variable {s : Scope} {path : String}

theorem route_super {levels : Nat} {rest : List String} (hpath : Text.segments path = keywords false levels ++ rest)
    (hlevels : 0 < levels) (hrest : rest.head? ≠ some "super") :
    s.route path =
      if s.package.modulePath.length < levels then .error (.invalidImport path s.package.spec)
      else .ok (.inside (s.package.modulePath.take (s.package.modulePath.length - levels) ++ rest)) := by
  have hsegs : Text.segments path = List.replicate levels "super" ++ rest := by simpa [keywords] using hpath
  have hfirst : (Text.segments path).head? = some "super" := by
    obtain ⟨above, rfl⟩ := Nat.exists_eq_add_of_lt hlevels
    simp [hsegs, List.replicate_succ]
  have hrestUps : rest.takeWhile (· = "super") = [] := by
    cases rest with
    | nil => rfl
    | cons seg rest =>
      have hseg : seg ≠ "super" := by simpa using hrest
      simp [hseg]
  have hups : (Text.segments path).takeWhile (· = "super") = List.replicate levels "super" := by
    rw [hsegs, List.takeWhile_append_of_pos (by simp), hrestUps, List.append_nil]
  have hdrop : (Text.segments path).drop levels = rest := by
    rw [hsegs, List.drop_left' List.length_replicate]
  unfold route
  simp only [hfirst, hups, List.length_replicate, hdrop, gt_iff_lt]

/-- Behind `self`, whatever comes is taken for names below the module. -/
theorem route_self_keywords {levels : Nat} {rest : List String}
    (hpath : Text.segments path = keywords true levels ++ rest) :
    s.route path = .ok (.inside (s.package.modulePath ++ (List.replicate levels "super" ++ rest))) :=
  route_self (by simpa [keywords] using hpath)

/-- A path that does not go up from `self` is followed to where it leads. -/
theorem route_eq_of_leadsTo {segs : List String} {r : Except GenerationError Route} (h : LeadsTo s path segs r)
    (hpath : Text.segments path = segs) (hself : ¬StartsAboveSelf segs) : s.route path = r := by
  cases h with
  | root rest => exact route_crate hpath
  | @upward fromSelf levels rest hkeyword hrest hlevels =>
    cases fromSelf with
    | true =>
      have hzero : levels = 0 := Nat.eq_zero_of_not_pos fun hpositive => hself (startsAboveSelf_keywords hpositive rest)
      subst hzero
      rw [route_self_keywords hpath]
      simp
    | false =>
      have hpositive : 0 < levels := by simpa using hkeyword
      rw [route_super hpath hpositive hrest, if_neg (by omega)]
  | @tooFar fromSelf levels rest hrest hlevels =>
    cases fromSelf with
    | true => exact absurd (startsAboveSelf_keywords (by omega) rest) hself
    | false => rw [route_super hpath (by omega) hrest, if_pos hlevels]
  | child hfirst hchild => rw [route_of_not_relative hpath hfirst, if_pos hchild]
  | outside hfirst hchild => rw [route_of_not_relative hpath hfirst, if_neg (Bool.not_eq_true _ |>.mpr hchild)]

/-- Every path leads somewhere, if only out of the crate. -/
theorem exists_leadsTo (s : Scope) (path : String) {segs : List String} (hne : segs ≠ []) :
    ∃ r, LeadsTo s path segs r := by
  obtain ⟨first, rest, rfl⟩ := List.exists_cons_of_ne_nil hne
  cases hfirst : relativeNames.contains first with
  | false =>
    cases hchild : s.children.contains first with
    | true => exact ⟨_, .child hfirst hchild⟩
    | false => exact ⟨_, .outside hfirst hchild⟩
  | true =>
    rcases relativeNames_contains.mp hfirst with rfl | hupward
    · exact ⟨_, .root rest⟩
    · obtain ⟨fromSelf, levels, back, hsegs, hkeyword, hback⟩ := exists_keywords hupward rest
      rw [hsegs]
      by_cases hlevels : levels ≤ s.package.modulePath.length
      · exact ⟨_, .upward hkeyword hback hlevels⟩
      · exact ⟨_, .tooFar hback (by omega)⟩

/-- A path from the root of the crate is read alike in all its modules. -/
theorem route_pathInto {t : Scope} (hsame : s.package.sameCrate t.package = true) {segs : List String}
    (hsegs : ∀ seg ∈ segs, Text.IsName seg) : t.route (s.pathInto t.package segs) = .ok (.inside segs) := by
  have hroot : s.package.rootFrom t.package = "crate" := if_pos hsame
  rw [pathInto, hroot]
  exact route_crate (Text.segments_joinPath_cons (by decide) hsegs)

end Scope

/-- What a module does with the paths that are written in it. -/
structure FollowsPaths (s : Scope) (path : String) : Prop where
  /-- A path that does not go up from `self` is followed to where it leads, and nowhere else. -/
  leads : ¬StartsAboveSelf (Text.segments path) → ∀ r, s.route path = r ↔ LeadsTo s path (Text.segments path) r
  /-- One that does is not followed upward. -/
  stays : StartsAboveSelf (Text.segments path) →
    s.route path = .ok (.inside (s.package.modulePath ++ (Text.segments path).tail))
  /-- What leads into the crate leads to the same place when it is written from the root, in any module of the crate. -/
  settles : ∀ segs, s.route path = .ok (.inside segs) →
    (∀ seg ∈ Text.segments path, Text.IsName seg) → (∀ seg ∈ s.package.modulePath, Text.IsName seg) →
    ∀ t : Scope, s.package.sameCrate t.package = true → t.route (s.pathInto t.package segs) = .ok (.inside segs)

/-- Paths are followed from the keywords that they begin with, in every module and at every depth. -/
theorem paths_of_module (s : Scope) (path : String) : FollowsPaths s path where
  leads hself r := by
    constructor
    · rintro rfl
      obtain ⟨r, hleads⟩ := Scope.exists_leadsTo s path (Text.segments_ne_nil path)
      rwa [Scope.route_eq_of_leadsTo hleads rfl hself]
    · intro hleads
      exact Scope.route_eq_of_leadsTo hleads rfl hself
  stays := by
    rintro ⟨rest, hsegs⟩
    have hpath : Text.segments path = "self" :: "super" :: rest := hsegs.symm
    rw [Scope.route_self hpath, hpath, List.tail_cons]
  settles segs hroute hpath hmodule t hsame :=
    Scope.route_pathInto hsame (Scope.isName_of_route hroute hpath hmodule)

section Harbour

/-- A module two levels below the root of its crate. -/
def pier : Scope where
  package := ⟨"port", ⟨"/port"⟩, ⟨"/port/src/lib.rs"⟩, ["harbour", "pier"], ⟨"/port/src/harbour/pier.rs"⟩⟩
  source := ⟨⟨"/port/src/harbour/pier.rs"⟩, []⟩
  bindings := []
  typeNames := []
  children := ["berth"]
  globs := []

/-- Each of two keywords is followed alone, but `self` and `super` together lead below the module and not above it. -/
theorem path_above_self_stays_below :
    LeadsTo pier "self::super::Boat" (Text.segments "self::super::Boat") (.ok (.inside ["harbour", "Boat"])) ∧
      pier.route "self::super::Boat" = .ok (.inside ["harbour", "pier", "super", "Boat"]) ∧
      pier.route "super::Boat" = .ok (.inside ["harbour", "Boat"]) ∧
      pier.route "self::Boat" = .ok (.inside ["harbour", "pier", "Boat"]) := by
  have hboth : Text.segments "self::super::Boat" = keywords true 1 ++ ["Boat"] := by decide +kernel
  have hsuper : Text.segments "super::Boat" = keywords false 1 ++ ["Boat"] := by decide +kernel
  have hself : Text.segments "self::Boat" = ["self", "Boat"] := by decide +kernel
  refine ⟨?_, Scope.route_self_keywords hboth, Scope.route_super hsuper (by decide) (by decide), Scope.route_self hself⟩
  rw [hboth]
  exact .upward (.inl rfl) (by decide) (by decide)

end Harbour

end TraitMock.Modules
