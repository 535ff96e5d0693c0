import Mathlib.Data.List.Perm.Subperm
import TraitMock.Proofs.Interface.Walk
import TraitMock.Proofs.Syntax.Counting

namespace TraitMock

open Files (Tree Place)
open Modules (Source)

namespace Files.Tree

variable {files : Tree}

/-- A path leads to a place only through places that are there. -/
theorem follow_isSome {here place : Place} {slots : List String} (h : files.follow here slots = .ok place)
    (hhere : ∀ n, (files.entry? (here.take n)).isSome) : ∀ n, (files.entry? (place.take n)).isSome := by
  induction slots generalizing here with
  | nil =>
    obtain rfl := Except.ok.inj h
    exact hhere
  | cons slot rest ih =>
    rw [follow] at h
    split at h
    · cases h
    · split at h
      · exact ih h hhere
      · split at h
        · refine ih h fun n => ?_
          rw [List.dropLast_eq_take, List.take_take]
          exact hhere _
        · split at h
          · rename_i hnext
            refine ih h fun n => ?_
            rcases Nat.lt_or_ge here.length n with hn | hn
            · rwa [List.take_of_length_le (by rw [List.length_append, List.length_singleton]; omega)]
            · rw [List.take_append_of_le_length hn]
              exact hhere n
          · cases h

/-- A path that leads somewhere else than to the root leads to a place of the tree. -/
theorem mem_of_locate {p : Path} {place : Place} (h : files.locate p = .ok place) (hplace : place ≠ []) :
    place ∈ files.entries.map (·.1) := by
  unfold locate at h
  split at h
  · have hsome := follow_isSome h (fun n => by simp [ entry?]) place.length
    rw [List.take_length, entry?, if_neg hplace] at hsome
    obtain ⟨e, he⟩ := Option.isSome_iff_exists.mp hsome
    obtain ⟨front, back, hentries, _⟩ := List.lookup_eq_some_iff.mp he
    exact List.mem_map.mpr ⟨(place, e), by simp [hentries], rfl⟩
  · cases h

end Files.Tree

/-- The names of the traits that are declared at the top of a file. -/
def traitNames (entries : List Syntax.Entry) : List String :=
  entries.filterMap fun e =>
    match e.item with
    | .trait t => some t.name
    | _ => none

private theorem mem_traitNames {name : String} {before entries : List Syntax.Entry}
    (h : (findTrait name before entries).isSome) : name ∈ traitNames entries := by
  induction entries generalizing before with
  | nil => simp [findTrait] at h
  | cons e rest ih =>
    have hrest : name ∈ traitNames rest → name ∈ traitNames (e :: rest) := fun hmem => by
      obtain ⟨e', he', hname⟩ := List.mem_filterMap.mp hmem
      exact List.mem_filterMap.mpr ⟨e', List.mem_cons_of_mem _ he', hname⟩
    rw [findTrait] at h
    split at h
    · rename_i t hitem
      split at h
      · rename_i hname
        exact List.mem_filterMap.mpr ⟨e, List.mem_cons_self, by simp [hitem, hname]⟩
      · exact hrest (ih h)
    · exact hrest (ih h)

/-- A file is known if it is one of some files, or was found at its place. -/
def KnownAmong (files : Tree) (sources : List Path) (q : Path) : Prop := q ∈ sources ∨ ∃ x, q = files.canonicalOr x

/-- The traits that were visited are different ones, and are declared in modules that were looked into. -/
structure Trail (w : Walk) : Prop where
  once : w.seen.Nodup
  declared : ∀ k ∈ w.seen, ∃ s, w.scopeAt k.file = some s ∧ (findTrait k.name [] s.source.entries).isSome

section

variable {files : Tree} {sources : List Path}

/-- The files that a walk can look into. -/
def reachableFiles (files : Tree) (sources : List Path) : List Path :=
  sources ++ files.entries.map fun e => Path.ofNames e.1

private theorem mem_reachableFiles {q : Path} {source : Source} (hknown : KnownAmong files sources q)
    (hread : Source.read files q = .ok source) : q ∈ reachableFiles files sources := by
  obtain ⟨place, bytes, _, hplace, hentry, _⟩ := Source.read_eq_ok hread
  rcases hknown with hmem | ⟨x, hx⟩
  · exact List.mem_append_left _ hmem
  · refine List.mem_append_right _ ?_
    unfold Tree.canonicalOr Tree.canonical at hx
    cases hlocate : files.locate x with
    | error e =>
      -- a path that leads nowhere is kept, so it cannot be read
      rw [hlocate] at hx
      obtain rfl : q = x := hx
      rw [hlocate] at hplace
      cases hplace
    | ok place' =>
      rw [hlocate] at hx
      obtain rfl : q = Path.ofNames place' := hx
      have hne : place' ≠ [] := by
        rintro rfl
        have hroot : files.locate (Path.ofNames []) = .ok [] := rfl
        rw [hroot] at hplace
        obtain rfl := Except.ok.inj hplace
        simp [ Tree.entry?] at hentry
      obtain ⟨e, he, rfl⟩ := List.mem_map.mp (Tree.mem_of_locate hlocate hne)
      exact List.mem_map.mpr ⟨e, he, rfl⟩

/-- The traits of a file. -/
def traitsIn (files : Tree) (q : Path) : List TraitKey :=
  match Source.read files q with
  | .ok source => (traitNames source.entries).map (⟨q.steps, ·⟩)
  | .error _ => []

private theorem length_traitsIn (q : Path) : (traitsIn files q).length ≤ files.size := by
  unfold traitsIn
  cases hread : Source.read files q with
  | error e => exact Nat.zero_le _
  | ok source =>
    have hnames : (traitNames source.entries).length ≤ source.entries.length := List.length_filterMap_le _ _
    have hentries := Source.length_entries hread
    simp only [List.length_map]
    omega

/-- A walk visits no more traits than there are. -/
theorem length_seen_le {root : Path} {w : Walk} {r : Resolver} (htrail : Trail w)
    (hsound : Sound files root (KnownAmong files sources) w r) :
    w.seen.length ≤ files.size * (files.entries.length + sources.length) := by
  have hsub : w.seen ⊆ (reachableFiles files sources).flatMap (traitsIn files) := by
    intro k hk
    obtain ⟨s, hscope, hdeclared⟩ := htrail.declared k hk
    obtain ⟨path, hmem, hsteps⟩ := Walk.scopeAt_of_mem hscope
    have hlooked := hsound.scopes _ hmem
    have hplace : s.package.file = path := hlooked.place
    have hknown : KnownAmong files sources path := hplace ▸ hlooked.belongs.known
    refine List.mem_flatMap.mpr ⟨path, mem_reachableFiles hknown hlooked.source, ?_⟩
    rw [traitsIn, hlooked.source]
    exact List.mem_map.mpr ⟨k.name, mem_traitNames hdeclared, by rw [hsteps]⟩
  have hfew : ∀ l : List Path, (l.flatMap (traitsIn files)).length ≤ files.size * l.length := by
    intro l
    induction l with
    | nil => simp
    | cons q rest ih =>
      have hq : (traitsIn files q).length ≤ files.size := length_traitsIn q
      rw [List.flatMap_cons, List.length_append, List.length_cons, Nat.mul_succ]
      omega
  have hlength := (htrail.once.subperm hsub).length_le
  have hfiles := hfew (reachableFiles files sources)
  rw [reachableFiles, List.length_append, List.length_map, Nat.add_comm] at hfiles
  exact Nat.le_trans hlength hfiles

end

end TraitMock
