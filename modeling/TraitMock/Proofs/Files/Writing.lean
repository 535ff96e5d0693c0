import TraitMock.Proofs.Files.Following

namespace TraitMock

open Files (Entry Place Tree)

namespace Files.Tree

open TraitMock.Path

variable {t t' t'' : Tree} {place q : Place} {p : Path} {bytes : List UInt8} {e : Entry}

private theorem lookup_filter_ne (entries : List (Place × Entry)) (hne : q ≠ place) :
    (entries.filter fun x => x.1 ≠ place).lookup q = entries.lookup q := by
  induction entries with
  | nil => rfl
  | cons x rest ih =>
    obtain ⟨here, e⟩ := x
    by_cases hhere : here = place
    · subst hhere
      have hq : (q == here) = false := by simpa using hne
      simpa [List.lookup_cons, hq] using ih
    · by_cases hq : q = here
      · simp [hhere, hq]
      · have hq' : (q == here) = false := by simpa using hq
        simpa [hhere, List.lookup_cons, hq'] using ih

/-- Putting an entry at a place changes what stands there and nothing else. -/
theorem entry?_set (hplace : place ≠ []) :
    Tree.entry? (t.set place e) q = if q = place then some e else t.entry? q := by
  by_cases hq : q = place
  · subst hq
    simp [ entry?, set, hplace]
  · have hlookup : (q == place) = false := by simpa using hq
    have hrest := lookup_filter_ne t.entries hq
    simp only [ne_eq, decide_not] at hrest
    simp [ entry?, set, hplace, hq, List.lookup_cons, hlookup, hrest]

/-- All directories and files of `t` are there in `t'`, and only files at places of `written` may have other content. -/
structure Extends (t t' : Tree) (written : Place → Prop) : Prop where
  directories {place : Place} (h : t.entry? place = some .directory) : t'.entry? place = some .directory
  files {place : Place} {bytes : List UInt8} (h : t.entry? place = some (.file bytes)) :
    ∃ bytes', t'.entry? place = some (.file bytes') ∧ (¬written place → bytes' = bytes)

namespace Extends

variable {written more : Place → Prop}

theorem refl (t : Tree) (written : Place → Prop) : t.Extends t written := ⟨id, fun h => ⟨_, h, fun _ => rfl⟩⟩

theorem trans (h : t.Extends t' written) (h' : t'.Extends t'' written) : t.Extends t'' written where
  directories hdir := h'.directories (h.directories hdir)
  files hfile := by
    obtain ⟨bytes', hfile', hsame⟩ := h.files hfile
    obtain ⟨bytes'', hfile'', hsame'⟩ := h'.files hfile'
    exact ⟨bytes'', hfile'', fun hout => (hsame' hout).trans (hsame hout)⟩

theorem mono (h : t.Extends t' written) (hmore : ∀ place, written place → more place) : t.Extends t' more where
  directories := h.directories
  files hfile := by
    obtain ⟨bytes', hfile', hsame⟩ := h.files hfile
    exact ⟨bytes', hfile', fun hout => hsame (mt (hmore _) hout)⟩

theorem isSome (h : t.Extends t' written) (hsome : (t.entry? place).isSome = true) :
    (t'.entry? place).isSome = true := by
  obtain ⟨e, he⟩ := Option.isSome_iff_exists.mp hsome
  cases e with
  | directory => simp [h.directories he]
  | file bytes =>
    obtain ⟨bytes', he', -⟩ := h.files he
    simp [he']

/-- A file that is not written keeps its content. -/
theorem file_eq (h : t.Extends t' written) (hfile : t.entry? place = some (.file bytes)) (hout : ¬written place) :
    t'.entry? place = some (.file bytes) := by
  obtain ⟨bytes', hfile', hsame⟩ := h.files hfile
  rw [hfile', hsame hout]

/-- Slots lead where they led before. -/
theorem follow_eq (h : t.Extends t' written) {slots : List String} {here there : Place}
    (hfollow : t.follow here slots = .ok there) : t'.follow here slots = .ok there := by
  induction slots generalizing here with
  | nil => exact hfollow
  | cons s rest ih =>
    have hdir := directory_of_follow hfollow
    have hdir' := h.directories hdir
    simp only [follow, hdir, hdir', ne_eq, not_true_eq_false, if_false] at hfollow ⊢
    by_cases hidle : isIdle s = true
    · rw [if_pos hidle] at hfollow ⊢
      exact ih hfollow
    rw [if_neg hidle] at hfollow ⊢
    by_cases hup : s = ".."
    · rw [if_pos hup] at hfollow ⊢
      exact ih hfollow
    rw [if_neg hup] at hfollow ⊢
    by_cases hthere : (t.entry? (here ++ [s])).isSome = true
    · rw [if_pos hthere] at hfollow
      rw [if_pos (h.isSome hthere)]
      exact ih hfollow
    · rw [if_neg hthere] at hfollow
      cases hfollow

theorem locate_eq (h : t.Extends t' written) (hlocate : t.locate p = .ok place) : t'.locate p = .ok place := by
  obtain ⟨rest, hrest, hp, hfollow⟩ := locate_eq_ok.mp hlocate
  exact locate_eq_ok.mpr ⟨rest, hrest, hp, h.follow_eq hfollow⟩

end Extends

private theorem extends_set_directory (hplace : place ≠ []) (hnone : t.entry? place = none) :
    t.Extends (t.set place .directory) fun _ => False := by
  have hother {q : Place} {e : Entry} (hq : t.entry? q = some e) :
      Tree.entry? (t.set place .directory) q = some e := by
    rw [entry?_set hplace, if_neg, hq]
    rintro rfl
    rw [hnone] at hq
    cases hq
  exact ⟨hother, fun h => ⟨_, hother h, fun _ => rfl⟩⟩

theorem extends_set_file (hdir : t.entry? place ≠ some .directory) :
    t.Extends (t.set place (.file bytes)) (· = place) := by
  have hplace : place ≠ [] := by
    rintro rfl
    exact hdir rfl
  constructor
  · intro q hq
    rw [entry?_set hplace, if_neg, hq]
    rintro rfl
    exact hdir hq
  · intro q old hq
    rw [entry?_set hplace]
    by_cases hqp : q = place
    · exact ⟨bytes, by rw [if_pos hqp], fun hout => absurd hqp hout⟩
    · exact ⟨old, by rw [if_neg hqp, hq], fun _ => rfl⟩

theorem extends_of_makeDirectory (h : t.makeDirectory p = .ok t') : t.Extends t' fun _ => False := by
  rw [makeDirectory] at h
  split at h
  · cases h
  · split at h
    · cases h
    · split at h
      · split at h
        · cases h
        · rename_i hnone
          cases h
          exact extends_set_directory (by simp) (by simpa using hnone)
      · cases h
  · cases h

private theorem extends_of_makeAll {paths : List Path} (h : t.makeAll paths = .ok t') : t.Extends t' fun _ => False := by
  induction paths generalizing t' with
  | nil =>
    cases h
    exact .refl t _
  | cons p above ih =>
    rw [makeAll] at h
    split at h
    · cases h
      exact .refl t _
    · split at h
      · rename_i hmake
        cases h
        exact extends_of_makeDirectory hmake
      · split at h
        · cases h
        · rename_i mid habove
          have hmid := ih habove
          split at h
          · rename_i hmake
            cases h
            exact hmid.trans (extends_of_makeDirectory hmake)
          · split at h
            · cases h
              exact hmid
            · cases h
      · split at h
        · cases h
          exact .refl t _
        · cases h

theorem extends_of_makeDirectories (h : t.makeDirectories p = .ok t') : t.Extends t' fun _ => False := extends_of_makeAll h

private theorem follow_eq_of_idle {idle : List String} (h : ∀ s ∈ idle, isIdle s = true)
    (hdir : t.entry? place = some .directory) : t.follow place idle = .ok place := by
  induction idle with
  | nil => rfl
  | cons s rest ih =>
    rw [follow, if_neg (not_not.mpr hdir), if_pos (h s List.mem_cons_self)]
    exact ih fun u hu => h u (List.mem_cons_of_mem s hu)

/-- A path that the root leads to begins at the root. -/
theorem first_eq_of_locate {first : String} {slots : List String} (hslots : ∀ s ∈ first :: slots, IsSlot s)
    (h : t.locate (ofSlots (first :: slots)) = .ok place) : first = "" := by
  by_cases hroot : first :: slots = [""]
  · exact (List.cons.inj hroot).1
  · obtain ⟨rest, -, hrest, -⟩ := locate_eq_ok.mp h
    rw [slots_ofSlots (by simp) hroot hslots] at hrest
    exact (List.cons.inj hrest).1

/-- A path leads to what stands under its name in the directory that its parent leads to. -/
theorem locate_of_parent {up : Path} {name : String} (hparent : p.parent? = some up) (hname : p.fileName? = some name)
    (hends : namesDirectory p = false) (hup : t.locate up = .ok place) (hdir : t.entry? place = some .directory)
    (hthere : (t.entry? (place ++ [name])).isSome = true) : t.locate p = .ok (place ++ [name]) := by
  obtain ⟨first, rest, hp⟩ := List.exists_cons_of_ne_nil (slots_ne_nil p)
  have hslot : ∀ s ∈ first :: rest, IsSlot s := fun s hs => isSlot_of_mem_slots (p := p) (hp ▸ hs)
  rcases List.eq_nil_or_concat rest with rfl | ⟨front, last, rfl⟩
  · -- a single name has no directory that the root leads to
    rw [parent?, back, hp] at hparent
    simp only [List.reverse_singleton, settle] at hparent
    split at hparent
    · cases hparent
    · cases hparent
      cases hup
  rw [List.concat_eq_append] at hp hslot
  have hlast : isIdle last = false := by
    have hlast? : (first :: (front ++ [last])).getLast? = some last := by
      rw [← List.cons_append, List.getLast?_concat]
    rw [namesDirectory, hp, hlast?] at hends
    exact hends
  obtain ⟨kept, idle, rfl, hidle, hname', hparent'⟩ := back_of_last hp hlast
  rw [hname'] at hname
  split at hname
  · cases hname
  rename_i hnotUp
  obtain rfl := Option.some.inj hname
  obtain rfl := Option.some.inj (hparent'.symm.trans hparent)
  have hkept : ∀ s ∈ first :: kept, IsSlot s := fun s hs => hslot s (by
    rcases List.mem_cons.mp hs with rfl | hs
    · simp
    · simp [hs])
  obtain rfl := first_eq_of_locate hkept hup
  rw [locate_ofSlots fun s hs => hkept s (List.mem_cons_of_mem _ hs)] at hup
  have hentry : IsEntryName last := ⟨hslot last (by simp), hlast, hnotUp⟩
  refine locate_eq_ok.mpr ⟨_, by simp, hp, ?_⟩
  rw [follow_append_eq_ok]
  refine ⟨place, ?_, (follow_name hentry).mpr ⟨hdir, rfl, hthere⟩⟩
  rw [follow_append_eq_ok]
  exact ⟨place, hup, follow_eq_of_idle hidle hdir⟩

/-- Writing puts the bytes where the path then leads to, and leaves everything else as it was. -/
theorem extends_of_writeBytes (h : t.writeBytes p bytes = .ok t') :
    ∃ place, t'.locate p = .ok place ∧ t'.entry? place = some (.file bytes) ∧ t.Extends t' (· = place) := by
  rw [writeBytes] at h
  split at h
  · rename_i place hlocate
    split at h
    · cases h
    rename_i hdir
    cases h
    have hextends : t.Extends (t.set place (.file bytes)) (· = place) := extends_set_file hdir
    have hplace : place ≠ [] := by
      rintro rfl
      exact hdir rfl
    exact ⟨place, hextends.locate_eq hlocate, by rw [entry?_set hplace, if_pos rfl], hextends⟩
  · split at h
    · rename_i up name hparent hname
      split at h
      · cases h
      rename_i dir hup
      split at h
      · rename_i hdir
        split at h
        · cases h
        rename_i hnone
        split at h
        · cases h
        rename_i hends
        cases h
        have hextends : t.Extends (t.set (dir ++ [name]) (.file bytes)) (· = dir ++ [name]) := extends_set_file (by
          intro hthere
          simp [hthere] at hnone)
        have hthere : Tree.entry? (t.set (dir ++ [name]) (.file bytes)) (dir ++ [name]) = some (.file bytes) := by
          rw [entry?_set (by simp), if_pos rfl]
        refine ⟨dir ++ [name], ?_, hthere, hextends⟩
        exact locate_of_parent hparent hname (by simpa using hends) (hextends.locate_eq hup)
          (hextends.directories hdir) (by rw [hthere]; rfl)
      · cases h
    · cases h

end Files.Tree

end TraitMock
