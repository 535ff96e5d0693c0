import Mathlib.Data.List.Induction
import TraitMock.Files.Tree
import TraitMock.Proofs.Files.Slots

namespace TraitMock

open Files (Place Tree)

namespace Path

/-- Removing idle slots from the end leaves what stands in front of them. -/
theorem settle_reverse (first : String) (slots : List String) :
    ∃ kept idle, slots = kept ++ idle ∧ (∀ s ∈ idle, isIdle s = true) ∧
      settle (slots.reverse ++ [first]) = kept.reverse ++ [first] := by
  induction slots using List.reverseRecOn with
  | nil => exact ⟨[], [], rfl, by simp, rfl⟩
  | append_singleton slots s ih =>
    obtain ⟨kept, idle, hslots, hidle, hsettle⟩ := ih
    by_cases hs : isIdle s = true
    · refine ⟨kept, idle ++ [s], by rw [hslots, List.append_assoc], ?_, ?_⟩
      · intro t ht
        rcases List.mem_append.mp ht with ht | ht
        · exact hidle t ht
        · rw [List.mem_singleton.mp ht]
          exact hs
      · rw [← hsettle, List.reverse_append]
        cases hrev : slots.reverse <;> simp [settle, hs]
    · refine ⟨slots ++ [s], [], by simp, by simp, ?_⟩
      rw [List.reverse_append]
      cases hrev : slots.reverse <;> simp [settle, hs]

/-- A path that ends with a slot that takes a step: its name, and what stands in front. -/
theorem back_of_last {p : Path} {first last : String} {front : List String}
    (hp : p.slots = first :: (front ++ [last])) (hlast : isIdle last = false) :
    ∃ kept idle, front = kept ++ idle ∧ (∀ s ∈ idle, isIdle s = true) ∧
      p.fileName? = (if last = ".." then none else some last) ∧ p.parent? = some (ofSlots (first :: kept)) := by
  obtain ⟨kept, idle, hfront, hidle, hsettle⟩ := settle_reverse first front
  have hback : p.back = last :: (front.reverse ++ [first]) := by
    rw [back, hp]
    cases hrev : front.reverse <;> simp [settle, hlast, hrev]
  refine ⟨kept, idle, hfront, hidle, ?_, ?_⟩
  · rw [fileName?, hback]
    cases front.reverse <;> simp
  · rw [parent?, hback]
    have hkept : (settle (front.reverse ++ [first])).reverse = first :: kept := by simp [hsettle]
    cases hrev : front.reverse ++ [first] with
    | nil => simp at hrev
    | cons _ _ => simp only [← hrev, hkept]

/-- The slots of an absolute path that ends with a name, and what stands in front of the name. -/
theorem back_of_name {p : Path} {front : List String} {name : String} (hp : p.slots = "" :: (front ++ [name]))
    (hname : IsEntryName name) :
    ∃ kept idle, front = kept ++ idle ∧ (∀ s ∈ idle, isIdle s = true) ∧
      p.fileName? = some name ∧ p.parent? = some (ofSlots ("" :: kept)) := by
  obtain ⟨kept, idle, hfront, hidle, hfileName, hparent⟩ := back_of_last hp hname.not_idle
  rw [if_neg hname.not_up] at hfileName
  exact ⟨kept, idle, hfront, hidle, hfileName, hparent⟩

end Path

namespace Path

private theorem IsEntryName.stepOf_eq {name : String} (h : IsEntryName name) : stepOf name = .name name := by
  rw [stepOf, if_neg h.not_up]

theorem slots_ofNames {names : List String} (hne : names ≠ []) (h : ∀ name ∈ names, IsEntryName name) :
    (ofNames names).slots = "" :: names := by
  obtain ⟨first, rest, rfl⟩ := List.exists_cons_of_ne_nil hne
  refine slots_ofSlots (by simp) (by simp) fun s hs => ?_
  rcases List.mem_cons.mp hs with rfl | hs
  · simp [IsSlot]
  · exact (h s hs).slot

theorem steps_ofNames {names : List String} (h : ∀ name ∈ names, IsEntryName name) :
    (ofNames names).steps = .root :: names.map .name := by
  by_cases hne : names = []
  · subst hne
    decide
  · have hslots := slots_ofNames hne h
    have htext : (ofNames names).text ≠ "" := by
      intro htext
      rw [slots, htext] at hslots
      simp [Text.splitAtChar, Ne.symm hne] at hslots
    have hfilter : names.filter (fun slot => !isIdle slot) = names :=
      List.filter_eq_self.mpr fun name hname => by simp [(h name hname).not_idle]
    have hmap : names.map stepOf = names.map .name :=
      List.map_congr_left fun name hname => (h name hname).stepOf_eq
    rw [steps, hslots]
    simp only [htext, if_false, if_true, hfilter, hmap]
    rfl

theorem fileName?_ofNames {front : List String} {name : String} (h : ∀ n ∈ front ++ [name], IsEntryName n) :
    (ofNames (front ++ [name])).fileName? = some name := by
  obtain ⟨_, _, _, _, hname, _⟩ := back_of_name (slots_ofNames (by simp) h) (h name (by simp))
  exact hname

theorem startsWith_ofNames {front back : List String} (h : ∀ name ∈ front ++ back, IsEntryName name) :
    (ofNames (front ++ back)).startsWith (ofNames front) = true := by
  rw [startsWith, steps_ofNames h, steps_ofNames fun name hname => h name (List.mem_append_left back hname)]
  simp

theorem same_ofNames {names other : List String} (h : ∀ name ∈ names, IsEntryName name)
    (h' : ∀ name ∈ other, IsEntryName name) : (ofNames names).same (ofNames other) = true ↔ names = other := by
  have hinjective : Function.Injective Step.name := fun _ _ heq => Step.name.inj heq
  rw [same, beq_iff_eq, steps_ofNames h, steps_ofNames h', List.cons.injEq, eq_self, true_and,
    List.map_inj_right hinjective]

end Path

namespace Files.Tree

open TraitMock.Path

variable {t : Tree} {here there place : Place}

private theorem follow_append (t : Tree) (here : Place) (front back : List String) :
    t.follow here (front ++ back) = t.follow here front >>= fun there => t.follow there back := by
  induction front generalizing here with
  | nil => rfl
  | cons slot rest ih =>
    rw [List.cons_append, follow, follow]
    split
    · rfl
    · split
      · exact ih here
      · split
        · exact ih here.dropLast
        · split
          · exact ih (here ++ [slot])
          · rfl

theorem follow_append_eq_ok {front back : List String} :
    t.follow here (front ++ back) = .ok there ↔
      ∃ mid, t.follow here front = .ok mid ∧ t.follow mid back = .ok there := by
  rw [follow_append]
  cases t.follow here front with
  | error fault => simp [bind, Except.bind]
  | ok mid => simp [bind, Except.bind]

/-- Following a name leads from a directory to what it holds under the name. -/
theorem follow_name {name : String} (hname : IsEntryName name) :
    t.follow here [name] = .ok there ↔
      t.entry? here = some .directory ∧ there = here ++ [name] ∧ (t.entry? there).isSome = true := by
  have hidle := hname.not_idle
  have hup := hname.not_up
  by_cases hdir : t.entry? here = some .directory
  · by_cases hthere : (t.entry? (here ++ [name])).isSome = true
    · simp only [follow, hdir, ne_eq, not_true_eq_false, if_false, hidle, Bool.false_eq_true, hup, hthere, if_true,
        Except.ok.injEq, true_and]
      constructor
      · rintro rfl
        exact ⟨rfl, hthere⟩
      · rintro ⟨rfl, -⟩
        rfl
    · simp only [follow, hdir, ne_eq, not_true_eq_false, if_false, hidle, Bool.false_eq_true, hup, hthere,
        reduceCtorEq, true_and, false_iff]
      rintro ⟨rfl, h⟩
      exact hthere h
  · simp [follow, hdir]

theorem follow_idle {idle : List String} (h : ∀ s ∈ idle, isIdle s = true)
    (hfollow : t.follow here idle = .ok there) : there = here := by
  induction idle with
  | nil => exact (Except.ok.inj hfollow).symm
  | cons s rest ih =>
    rw [follow, if_pos (h s List.mem_cons_self)] at hfollow
    split at hfollow
    · cases hfollow
    · exact ih (fun u hu => h u (List.mem_cons_of_mem s hu)) hfollow

/-- A place that is reached from the root by names only. -/
structure Reached (t : Tree) (place : Place) : Prop where
  names : ∀ name ∈ place, IsEntryName name
  follow_eq : t.follow [] place = .ok place

theorem reached_nil (t : Tree) : t.Reached [] := ⟨by simp, rfl⟩

theorem Reached.dropLast (h : t.Reached place) : t.Reached place.dropLast := by
  refine ⟨fun name hname => h.names name (List.dropLast_subset place hname), ?_⟩
  rcases List.eq_nil_or_concat place with rfl | ⟨front, name, rfl⟩
  · rfl
  · rw [List.concat_eq_append] at h ⊢
    have hfollow := h.follow_eq
    rw [follow_append_eq_ok] at hfollow
    obtain ⟨mid, hfront, hname⟩ := hfollow
    have hentry := h.names name (by simp)
    obtain ⟨-, hmid, -⟩ := (follow_name hentry).mp hname
    have hmid' : mid = front := (List.append_inj_left' hmid rfl).symm
    rw [List.dropLast_concat, hfront, hmid']

/-- What holds a place is a directory. -/
theorem Reached.parent {name : String} (h : t.Reached (place ++ [name])) : t.entry? place = some .directory := by
  have hfollow := h.follow_eq
  rw [follow_append_eq_ok] at hfollow
  obtain ⟨mid, hfront, hname⟩ := hfollow
  obtain ⟨hdir, hmid, -⟩ := (follow_name (h.names name (by simp))).mp hname
  rwa [List.append_inj_left' hmid rfl]

private theorem Reached.directory_dropLast (h : t.Reached place) : t.entry? place.dropLast = some .directory := by
  rcases List.eq_nil_or_concat place with rfl | ⟨front, name, rfl⟩
  · rfl
  · rw [List.concat_eq_append] at h ⊢
    rw [List.dropLast_concat]
    exact h.parent

theorem reached_of_follow {slots : List String} (hslots : ∀ s ∈ slots, IsSlot s) (hhere : t.Reached here)
    (h : t.follow here slots = .ok there) : t.Reached there := by
  induction slots generalizing here with
  | nil => exact Except.ok.inj h ▸ hhere
  | cons s rest ih =>
    have hrest : ∀ u ∈ rest, IsSlot u := fun u hu => hslots u (List.mem_cons_of_mem s hu)
    rw [follow] at h
    split at h
    · cases h
    · rename_i hdir
      split at h
      · exact ih hrest hhere h
      · rename_i hidle
        split at h
        · exact ih hrest hhere.dropLast h
        · rename_i hup
          split at h
          · rename_i hthere
            have hname : IsEntryName s := ⟨hslots s List.mem_cons_self, by simpa using hidle, hup⟩
            refine ih hrest ⟨fun n hn => ?_, ?_⟩ h
            · rcases List.mem_append.mp hn with hn | hn
              · exact hhere.names n hn
              · exact List.mem_singleton.mp hn ▸ hname
            · rw [follow_append_eq_ok]
              exact ⟨here, hhere.follow_eq, (follow_name hname).mpr ⟨by simpa using hdir, rfl, hthere⟩⟩
          · cases h

theorem locate_eq {p : Path} {rest : List String} (hp : p.slots = "" :: rest) (hrest : rest ≠ []) :
    t.locate p = t.follow [] rest := by
  rw [locate, if_pos (isAbsolute_iff.mpr ⟨rest, hrest, hp⟩), hp]
  rfl

theorem locate_eq_ok {p : Path} :
    t.locate p = .ok place ↔ ∃ rest, rest ≠ [] ∧ p.slots = "" :: rest ∧ t.follow [] rest = .ok place := by
  by_cases habsolute : p.isAbsolute = true
  · obtain ⟨rest, hrest, hp⟩ := isAbsolute_iff.mp habsolute
    rw [locate_eq hp hrest]
    constructor
    · exact fun h => ⟨rest, hrest, hp, h⟩
    · rintro ⟨rest', -, hp', h⟩
      rw [hp] at hp'
      exact (List.cons.inj hp').2 ▸ h
  · rw [locate, if_neg habsolute]
    constructor
    · intro h
      cases h
    · rintro ⟨rest, hrest, hp, -⟩
      exact absurd (isAbsolute_iff.mpr ⟨rest, hrest, hp⟩) habsolute

theorem reached_of_locate {p : Path} (h : t.locate p = .ok place) : t.Reached place := by
  obtain ⟨rest, -, hp, hfollow⟩ := locate_eq_ok.mp h
  have hslots : ∀ s ∈ rest, IsSlot s := fun s hs =>
    isSlot_of_mem_slots (p := p) (by rw [hp]; exact List.mem_cons_of_mem "" hs)
  exact reached_of_follow hslots (reached_nil t) hfollow

/-- Joining a name to a path leads to what stands under the name at the end of the path. -/
theorem locate_join {dir : Path} {name : String} (hname : IsEntryName name) :
    t.locate (dir.join name) = .ok place ↔
      ∃ up, t.locate dir = .ok up ∧ t.entry? up = some .directory ∧ place = up ++ [name] ∧
        (t.entry? place).isSome = true := by
  by_cases habsolute : dir.isAbsolute = true
  · obtain ⟨rest, hrest, hslots⟩ := isAbsolute_iff.mp habsolute
    rcases slots_join hname habsolute with hjoin | ⟨front, hfront, hne, hjoin⟩
    · rw [hslots, List.cons_append] at hjoin
      rw [locate_eq hjoin (by simp), follow_append_eq_ok, locate_eq hslots hrest]
      simp only [follow_name hname]
    · obtain ⟨first, front, rfl⟩ := List.exists_cons_of_ne_nil hne
      rw [hslots, List.cons_append, List.cons.injEq] at hfront
      obtain ⟨rfl, rfl⟩ := hfront
      rw [List.cons_append] at hjoin
      rw [locate_eq hjoin (by simp), follow_append_eq_ok, locate_eq hslots hrest]
      simp only [follow_name hname, follow_append_eq_ok]
      constructor
      · rintro ⟨up, hup, hentry, hplace, hsome⟩
        exact ⟨up, ⟨up, hup, by simp [follow, hentry, isIdle]⟩, hentry, hplace, hsome⟩
      · rintro ⟨up, ⟨mid, hmid, hlast⟩, hentry, hplace, hsome⟩
        obtain rfl := follow_idle (by simp [isIdle]) hlast
        exact ⟨up, hmid, hentry, hplace, hsome⟩
  · rw [locate, isAbsolute_join hname, if_neg habsolute]
    constructor
    · intro h
      cases h
    · rintro ⟨up, hup, -⟩
      rw [locate, if_neg habsolute] at hup
      cases hup

theorem directory_of_follow {slot : String} {rest : List String} (h : t.follow here (slot :: rest) = .ok there) :
    t.entry? here = some .directory := by
  by_contra hdir
  rw [follow, if_pos hdir] at h
  cases h

/-- A path that begins at the root and goes on with the given slots leads where they lead. -/
theorem locate_ofSlots {slots : List String} (h : ∀ s ∈ slots, IsSlot s) :
    t.locate (ofSlots ("" :: slots)) = t.follow [] slots := by
  cases slots with
  | nil => rfl
  | cons s rest =>
    have hslots : (ofSlots ("" :: s :: rest)).slots = "" :: s :: rest := by
      refine slots_ofSlots (by simp) (by simp) fun u hu => ?_
      rcases List.mem_cons.mp hu with rfl | hu
      · simp [IsSlot]
      · exact h u hu
    exact locate_eq hslots (by simp)

/-- The path of a file ends with its name, and what stands in front leads to its directory. -/
theorem locate_parent {p : Path} {last : String} (h : t.locate p = .ok (place ++ [last]))
    (hfile : t.entry? (place ++ [last]) ≠ some .directory) :
    p.fileName? = some last ∧ ∃ up, p.parent? = some up ∧ t.locate up = .ok place := by
  obtain ⟨rest, hrest, hp, hfollow⟩ := locate_eq_ok.mp h
  obtain ⟨front, name, rfl⟩ : ∃ front name, rest = front ++ [name] :=
    ⟨rest.dropLast, rest.getLast hrest, (List.dropLast_concat_getLast hrest).symm⟩
  have hslots : ∀ s ∈ front ++ [name], IsSlot s := fun s hs =>
    isSlot_of_mem_slots (p := p) (by rw [hp]; exact List.mem_cons_of_mem "" hs)
  rw [follow_append_eq_ok] at hfollow
  obtain ⟨mid, hmid, hlast⟩ := hfollow
  have hreached : t.Reached mid :=
    reached_of_follow (fun s hs => hslots s (List.mem_append_left [name] hs)) (reached_nil t) hmid
  have hmidDir := directory_of_follow hlast
  have hname : IsEntryName name := by
    refine ⟨hslots name (by simp), ?_, ?_⟩
    · -- an idle slot at the end stays at a directory
      by_contra hidle
      obtain rfl := follow_idle (by simpa using hidle) hlast
      exact hfile hmidDir
    · -- so does a step up
      rintro rfl
      have hplace : place ++ [last] = mid.dropLast := by
        have hup : t.follow mid [".."] = .ok mid.dropLast := by simp [follow, hmidDir, isIdle]
        exact Except.ok.inj (hlast.symm.trans hup)
      exact hfile (hplace ▸ hreached.directory_dropLast)
  obtain ⟨-, hplace, -⟩ := (follow_name hname).mp hlast
  obtain ⟨rfl, hlasts⟩ := List.append_inj' hplace rfl
  obtain rfl := List.singleton_inj.mp hlasts
  obtain ⟨kept, idle, rfl, hidle, hfileName, hparent⟩ := back_of_name hp hname
  refine ⟨hfileName, _, hparent, ?_⟩
  obtain ⟨there, hkept, hrest⟩ := follow_append_eq_ok.mp hmid
  obtain rfl := follow_idle hidle hrest
  rw [locate_ofSlots fun s hs => hslots s (by simp [hs])]
  exact hkept

/-- The place of a file is not the root. -/
theorem exists_last_of_file (hfile : t.entry? place ≠ some .directory) : ∃ dir last, place = dir ++ [last] := by
  rcases List.eq_nil_or_concat place with rfl | ⟨dir, last, rfl⟩
  · exact absurd rfl hfile
  · exact ⟨dir, last, by rw [List.concat_eq_append]⟩

theorem locate_ofNames (h : t.Reached place) : t.locate (ofNames place) = .ok place := by
  rw [ofNames, locate_ofSlots fun s hs => (h.names s hs).slot]
  exact h.follow_eq

theorem canonical_eq_ok {p q : Path} : t.canonical p = .ok q ↔ ∃ place, t.locate p = .ok place ∧ q = ofNames place := by
  rw [canonical]
  cases t.locate p with
  | error fault => simp [Functor.map, Except.map]
  | ok place => simp [Functor.map, Except.map, eq_comm]

theorem canonicalOr_of_locate {p : Path} (h : t.locate p = .ok place) : t.canonicalOr p = ofNames place := by
  rw [canonicalOr, canonical_eq_ok.mpr ⟨place, h, rfl⟩]

theorem at?_of_locate {p : Path} (h : t.locate p = .ok place) : t.at? p = t.entry? place := by
  rw [ at?, h]

theorem isFile_iff {p : Path} :
    t.isFile p = true ↔
      ∃ place, t.locate p = .ok place ∧ (t.entry? place).isSome = true ∧ t.entry? place ≠ some .directory := by
  rw [isFile, has, isDirectory, at?]
  cases t.locate p <;> simp

theorem isDirectory_of_locate {p : Path} (h : t.locate p = .ok place) (hfile : t.entry? place ≠ some .directory) :
    t.isDirectory p = false := by
  rw [isDirectory, at?_of_locate h]
  simpa using hfile

end Files.Tree

end TraitMock
