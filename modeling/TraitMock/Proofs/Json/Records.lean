import Mathlib.Data.List.Forall2
import Mathlib.Data.List.Perm.Basic
import Mathlib.Logic.Relation
import TraitMock.Json.Decode
import TraitMock.Proofs.Json.Reading
import TraitMock.Proofs.Json.Writing

namespace TraitMock.Json

theorem Read.bind_eq_ok_iff {α β : Type} {x : Read α} {f : α → Read β} {b : β} :
    (x >>= f) = .ok b ↔ ∃ a, x = .ok a ∧ f a = .ok b := by
  cases x <;> simp [bind, Except.bind]

theorem Read.assign_eq_ok_iff {α β : Type} {x : Read α} {f : α → β} {b : β} :
    (do pure (f (← x))) = .ok b ↔ ∃ a, x = .ok a ∧ f a = b := by
  cases x <;> simp [bind, Except.bind, pure, Except.pure]

section Lists

variable {α : Type} {read : Json → Read α} {items front rest : List Json} {as : List α} {j j' : Json}

theorem readList_eq_ok_iff :
    readList read (.array items none) = .ok as ↔ List.Forall₂ (fun j a => read j = .ok a) items as := by
  rw [show readList read (.array items none) = items.mapM read by simp [readList]]
  induction items generalizing as with
  | nil => simp [pure, Except.pure, eq_comm]
  | cons j items ih =>
    simp only [List.mapM_cons, Read.bind_eq_ok_iff, ih, List.forall₂_cons_left_iff]
    constructor
    · rintro ⟨a, ha, rest, hrest, h⟩
      exact ⟨a, rest, ha, hrest, (Except.ok.inj h).symm⟩
    · rintro ⟨a, rest, ha, hrest, rfl⟩
      exact ⟨a, ha, rest, hrest, rfl⟩

theorem exists_read_of_readList (h : readList read (.array items none) = .ok as) (hj : j ∈ items) :
    ∃ a, read j = .ok a := by
  induction readList_eq_ok_iff.mp h with
  | nil => cases hj
  | cons hfirst _ ih =>
    rcases List.mem_cons.mp hj with rfl | hj
    · exact ⟨_, hfirst⟩
    · exact ih (readList_eq_ok_iff.mpr ‹_›) hj

theorem readList_of_item (hitem : ∀ a, read j = .ok a → read j' = .ok a)
    (h : readList read (.array (front ++ j :: rest) none) = .ok as) :
    readList read (.array (front ++ j' :: rest) none) = .ok as := by
  rw [readList_eq_ok_iff] at h ⊢
  induction front generalizing as with
  | nil =>
    obtain ⟨a, as, hfirst, hrest, rfl⟩ := List.forall₂_cons_left_iff.mp h
    exact .cons (hitem a hfirst) hrest
  | cons i front ih =>
    obtain ⟨a, as, hfirst, hrest, rfl⟩ := List.forall₂_cons_left_iff.mp h
    exact .cons hfirst (ih hrest)

end Lists

def entries : Json → List (Text × Json)
  | .object entries _ => entries
  | _ => []

namespace Shape

variable {σ : Type} (shape : Shape σ)

section Entries

/-- What the entries of an object hold for the fields. -/
def known (entries : List (Text × Json)) : List (String × Json) :=
  (entries.map fun e => (e.1.text, e.2)).filter fun e => shape.fields.contains e.1

/-- The fields for which an object has entries. -/
def keys (entries : List (Text × Json)) : List String := (shape.known entries).map Prod.fst

/-- An entry that can be read, or passed over if it is for no field. -/
def IsSound (e : Text × Json) : Prop :=
  e.1.fault? = none ∧ (e.1.text ∉ shape.fields → e.2.skipFault? = none)

/-- Reads one field after the other. -/
def readFields (s : σ) (fields : List (String × Json)) : Read σ :=
  fields.foldlM (fun s field => shape.read s field.1 field.2) s

/-- Which objects are read, and as what. -/
structure Reads (start : σ) (entries : List (Text × Json)) (s : σ) : Prop where
  sound : ∀ e ∈ entries, shape.IsSound e
  once : (shape.keys entries).Nodup
  complete : ∀ name ∈ shape.required, name ∈ shape.keys entries
  fields : shape.readFields start (shape.known entries) = .ok s

variable {shape} {entries entries' : List (Text × Json)} {start s s' : σ} {seen seen' : List String} {key : String}
  {t : Text} {j j' : Json}

theorem known_cons_of_mem (h : t.text ∈ shape.fields) :
    shape.known ((t, j) :: entries) = (t.text, j) :: shape.known entries := by
  simp [known, h]

theorem known_cons_of_not_mem (h : t.text ∉ shape.fields) :
    shape.known ((t, j) :: entries) = shape.known entries := by
  simp [known, h]

theorem known_perm (h : entries.Perm entries') : (shape.known entries).Perm (shape.known entries') :=
  (h.map _).filter _

private theorem mem_keys_iff : key ∈ shape.keys entries ↔ key ∈ shape.fields ∧ ∃ e ∈ entries, e.1.text = key := by
  simp only [keys, known, List.mem_map, List.mem_filter, List.contains_iff_mem]
  constructor
  · rintro ⟨_, ⟨⟨e, he, rfl⟩, hkey⟩, rfl⟩
    exact ⟨hkey, e, he, rfl⟩
  · rintro ⟨hkey, e, he, rfl⟩
    exact ⟨_, ⟨⟨e, he, rfl⟩, hkey⟩, rfl⟩

theorem readFields_cons_eq_ok_iff {fields : List (String × Json)} :
    shape.readFields s ((key, j) :: fields) = .ok s' ↔
      ∃ s₁, shape.read s key j = .ok s₁ ∧ shape.readFields s₁ fields = .ok s' := by
  simp only [readFields, List.foldlM_cons, Read.bind_eq_ok_iff]

/-- The entries are read if all of them are sound, no field comes twice, and each field can be read in its turn. -/
theorem readEntries_eq_ok_iff (hnodup : seen.Nodup) : shape.readEntries seen s entries = .ok (s', seen') ↔
    (∀ e ∈ entries, shape.IsSound e) ∧ seen'.Nodup ∧ shape.readFields s (shape.known entries) = .ok s' ∧
      seen' = (shape.keys entries).reverse ++ seen := by
  induction entries generalizing s seen with
  | nil =>
    simp only [readEntries, keys, known, readFields, Except.ok.injEq, Prod.mk.injEq, List.map_nil, List.filter_nil,
      List.foldlM_nil, pure, Except.pure, List.reverse_nil, List.nil_append]
    grind
  | cons e rest ih =>
    obtain ⟨t, j⟩ := e
    cases hfault : t.fault? with
    | some f => simp [readEntries, IsSound, hfault]
    | none =>
      by_cases hkey : t.text ∈ shape.fields
      · have hsound : shape.IsSound (t, j) := ⟨hfault, fun h => absurd hkey h⟩
        -- The fields seen so far stand behind those to come, so the field moves over when its entry is read.
        rw [keys, known_cons_of_mem hkey, readFields_cons_eq_ok_iff, List.map_cons, List.reverse_cons,
          List.append_assoc, List.singleton_append]
        by_cases hseen : t.text ∈ seen
        · simp only [readEntries, hfault, List.contains_iff_mem.mpr hkey, List.contains_iff_mem.mpr hseen, if_true]
          refine iff_of_false nofun ?_
          rintro ⟨-, hseen', -, rfl⟩
          exact (List.nodup_cons.mp (List.nodup_append.mp hseen').2.1).1 hseen
        · have ih := fun s₁ => ih (s := s₁) (List.nodup_cons.mpr ⟨hseen, hnodup⟩)
          cases hread : shape.read s t.text j with
          | error e => simp [readEntries, hfault, hkey, hseen, hread]
          | ok s₁ => simp [readEntries, hfault, hkey, hseen, hread, ih, hsound, keys]
      · rw [keys, known_cons_of_not_mem hkey]
        cases hskip : j.skipFault? with
        | some f => simp [readEntries, IsSound, hfault, hkey, hskip]
        | none => simp [readEntries, IsSound, hfault, hkey, hskip, ih hnodup, keys]

theorem decode_object_eq_ok_iff : shape.decode start (.object entries none) = .ok s ↔ shape.Reads start entries s := by
  have hentries : ∀ s₁ seen₁, shape.readEntries [] start entries = .ok (s₁, seen₁) ↔ _ :=
    fun _ _ => readEntries_eq_ok_iff List.nodup_nil
  have hlacking : (shape.required.find? fun name => !(shape.keys entries).reverse.contains name) = none ↔
      ∀ name ∈ shape.required, name ∈ shape.keys entries := by
    simp [List.find?_eq_none]
  simp only [decode, Read.bind_eq_ok_iff, Prod.exists, hentries, List.append_nil]
  constructor
  · rintro ⟨s₁, _, ⟨hsound, honce, hfields, rfl⟩, h⟩
    split at h
    · cases h
    · obtain rfl : s₁ = s := Except.ok.inj h
      exact ⟨hsound, (List.reverse_perm _).nodup_iff.mp honce, hlacking.mp ‹_›, hfields⟩
  · rintro ⟨hsound, honce, hcomplete, hfields⟩
    refine ⟨s, _, ⟨hsound, (List.reverse_perm _).nodup_iff.mpr honce, hfields, rfl⟩, ?_⟩
    rw [hlacking.mpr hcomplete]
    rfl

end Entries

section Edits

/-- Two fields do not disturb each other: they can be read in both orders. -/
def Independent (shape : Shape σ) : Prop :=
  ∀ {s s₁ s₂ : σ} {key key' : String} {j j' : Json}, key ∈ shape.fields → key' ∈ shape.fields → key ≠ key' →
    shape.read s key j = .ok s₁ → shape.read s₁ key' j' = .ok s₂ →
    ∃ s₃, shape.read s key' j' = .ok s₃ ∧ shape.read s₃ key j = .ok s₂

/-- One change to how a record is written; `defaults` is the record of the defaults. The entries that are left out, put
    in or changed are the first ones: any other comes to the front by a permutation. -/
inductive Edit (shape : Shape σ) (defaults : Json) (part : String → Json → Json → Prop) : Json → Json → Prop where
  | permute {entries entries' : List (Text × Json)} (h : entries.Perm entries') :
    Edit shape defaults part (.object entries none) (.object entries' none)
  /-- A field that holds its default is left out. -/
  | leaveOut {key : String} {j : Json} {rest : List (Text × Json)} (hdefault : (⟨key, none⟩, j) ∈ defaults.entries)
    (hoptional : key ∉ shape.required) :
    Edit shape defaults part (.object ((⟨key, none⟩, j) :: rest) none) (.object rest none)
  /-- A key that is no field is put in, with whatever value. -/
  | putIn {key : String} {j : Json} {rest : List (Text × Json)} (hunknown : key ∉ shape.fields)
    (hvalue : IsWritable j) : Edit shape defaults part (.object rest none) (.object ((⟨key, none⟩, j) :: rest) none)
  /-- The value of a field is written in another way. -/
  | within {key : String} {j j' : Json} {rest : List (Text × Json)} (h : part key j j') :
    Edit shape defaults part (.object ((⟨key, none⟩, j) :: rest) none) (.object ((⟨key, none⟩, j') :: rest) none)

/-- When edited records are read alike. -/
structure Tolerant (shape : Shape σ) (start : σ) (defaults : Json) (part : String → Json → Json → Prop) : Prop where
  independent : shape.Independent
  /-- Reading a default changes nothing. -/
  default : ∀ {key j}, (⟨key, none⟩, j) ∈ defaults.entries → key ∉ shape.required →
    key ∈ shape.fields ∧ shape.read start key j = .ok start
  part : ∀ {key j j'}, part key j j' → key ∈ shape.fields ∧
    ∀ s s', shape.read s key j = .ok s' → shape.read s key j' = .ok s'

variable {shape} {entries entries' : List (Text × Json)} {start s s' : σ} {key : String} {j j' : Json}
  {defaults : Json} {part : String → Json → Json → Prop}

private theorem readFields_perm (hindependent : shape.Independent) {fields fields' : List (String × Json)}
    (h : fields.Perm fields') (hknown : ∀ field ∈ fields, field.1 ∈ shape.fields)
    (honce : (fields.map Prod.fst).Nodup) (hread : shape.readFields s fields = .ok s') :
    shape.readFields s fields' = .ok s' := by
  induction h generalizing s with
  | nil => exact hread
  | cons field _ ih =>
    obtain ⟨s₁, hfirst, hrest⟩ := readFields_cons_eq_ok_iff.mp hread
    exact readFields_cons_eq_ok_iff.mpr
      ⟨s₁, hfirst, ih (fun f hf => hknown f (List.mem_cons_of_mem _ hf)) (List.nodup_cons.mp honce).2 hrest⟩
  | swap field field' rest =>
    obtain ⟨s₁, hfirst, hread⟩ := readFields_cons_eq_ok_iff.mp hread
    obtain ⟨s₂, hsecond, hrest⟩ := readFields_cons_eq_ok_iff.mp hread
    -- Only different fields may change places: the later of two entries for one field would win.
    have hne : field'.1 ≠ field.1 := by
      rintro heq
      simp [heq] at honce
    obtain ⟨s₃, hfirst', hsecond'⟩ := hindependent (hknown _ (by simp)) (hknown _ (by simp)) hne hfirst hsecond
    exact readFields_cons_eq_ok_iff.mpr ⟨s₃, hfirst', readFields_cons_eq_ok_iff.mpr ⟨s₂, hsecond', hrest⟩⟩
  | trans h₁ h₂ ih₁ ih₂ =>
    exact ih₂ (fun f hf => hknown f (h₁.mem_iff.mpr hf)) ((h₁.map _).nodup_iff.mp honce) (ih₁ hknown honce hread)

theorem Reads.perm (hindependent : shape.Independent) (h : entries.Perm entries')
    (hreads : shape.Reads start entries s) : shape.Reads start entries' s where
  sound e he := hreads.sound e (h.mem_iff.mpr he)
  once := ((known_perm h).map _).nodup_iff.mp hreads.once
  complete name hname := ((known_perm h).map _).mem_iff.mp (hreads.complete name hname)
  fields := readFields_perm hindependent (known_perm h) (fun field hfield => by
    simpa using (List.mem_filter.mp hfield).2) hreads.once hreads.fields

/-- What an object with a field in front is read as. -/
theorem reads_cons_iff (hkey : key ∈ shape.fields) : shape.Reads start ((⟨key, none⟩, j) :: entries) s ↔
    (∀ e ∈ entries, shape.IsSound e) ∧ (key :: shape.keys entries).Nodup ∧
      (∀ name ∈ shape.required, name ∈ key :: shape.keys entries) ∧
      ∃ s₁, shape.read start key j = .ok s₁ ∧ shape.readFields s₁ (shape.known entries) = .ok s := by
  have hsound : shape.IsSound (⟨key, none⟩, j) := ⟨rfl, fun h => absurd hkey h⟩
  have hkeys : shape.keys ((⟨key, none⟩, j) :: entries) = key :: shape.keys entries := by
    rw [keys, known_cons_of_mem hkey]
    rfl
  rw [← readFields_cons_eq_ok_iff, ← hkeys, ← known_cons_of_mem (t := ⟨key, none⟩) hkey]
  constructor
  · rintro ⟨hall, honce, hcomplete, hfields⟩
    exact ⟨fun e he => hall e (List.mem_cons_of_mem _ he), honce, hcomplete, hfields⟩
  · rintro ⟨hall, honce, hcomplete, hfields⟩
    exact ⟨List.forall_mem_cons.mpr ⟨hsound, hall⟩, honce, hcomplete, hfields⟩

/-- An edited record can be written, if its parts can. -/
theorem Edit.isWritable (hpart : ∀ key j j', part key j j' → IsWritable j → IsWritable j')
    (h : shape.Edit defaults part j j') (hj : IsWritable j) : IsWritable j' := by
  cases h with
  | permute h =>
    rw [isWritable_object_iff] at hj ⊢
    exact fun e he => hj e (h.mem_iff.mpr he)
  | leaveOut =>
    rw [isWritable_object_iff] at hj ⊢
    exact (List.forall_mem_cons.mp hj).2
  | putIn _ hvalue =>
    rw [isWritable_object_iff] at hj ⊢
    exact List.forall_mem_cons.mpr ⟨⟨rfl, hvalue⟩, hj⟩
  | within h =>
    rw [isWritable_object_iff, List.forall_mem_cons] at hj ⊢
    exact ⟨⟨rfl, hpart _ _ _ h hj.1.2⟩, hj.2⟩

/-- An edited record is read alike. -/
theorem decode_of_edit (htolerant : shape.Tolerant start defaults part) (h : shape.Edit defaults part j j')
    (hread : shape.decode start j = .ok s) : shape.decode start j' = .ok s := by
  cases h with
  | permute h =>
    rw [decode_object_eq_ok_iff] at hread ⊢
    exact hread.perm htolerant.independent h
  | @leaveOut key _ _ hdefault hoptional =>
    obtain ⟨hkey, hstart⟩ := htolerant.default hdefault hoptional
    rw [decode_object_eq_ok_iff] at hread ⊢
    obtain ⟨hsound, honce, hcomplete, s₁, hfirst, hrest⟩ := (reads_cons_iff hkey).mp hread
    obtain rfl : start = s₁ := Except.ok.inj (hstart.symm.trans hfirst)
    refine ⟨hsound, (List.nodup_cons.mp honce).2, fun name hname => ?_, hrest⟩
    have hne : name ≠ key := fun heq => hoptional (heq ▸ hname)
    exact List.mem_of_ne_of_mem hne (hcomplete name hname)
  | @putIn key j rest hunknown hvalue =>
    rw [decode_object_eq_ok_iff] at hread ⊢
    obtain ⟨written, hwritten⟩ := hvalue
    have hknown : shape.known ((⟨key, none⟩, j) :: rest) = shape.known rest := known_cons_of_not_mem hunknown
    have hsound : shape.IsSound (⟨key, none⟩, j) := ⟨rfl, fun _ => hwritten.skipFault?_eq⟩
    refine ⟨List.forall_mem_cons.mpr ⟨hsound, hread.sound⟩, ?_, ?_, hknown ▸ hread.fields⟩
    · simpa only [keys, hknown] using hread.once
    · simpa only [keys, hknown] using hread.complete
  | within h =>
    obtain ⟨hkey, halike⟩ := htolerant.part h
    rw [decode_object_eq_ok_iff, reads_cons_iff hkey] at hread ⊢
    obtain ⟨hsound, honce, hcomplete, s₁, hfirst, hrest⟩ := hread
    exact ⟨hsound, honce, hcomplete, s₁, halike _ _ hfirst, hrest⟩

end Edits

section Faults

/-- What stands for a field in a document. -/
inductive Holds (shape : Shape σ) : Json → String → Json → Prop where
  | entry {entries : List (Text × Json)} {key : String} {j : Json} (hkey : key ∈ shape.fields)
    (h : (⟨key, none⟩, j) ∈ entries) : Holds shape (.object entries none) key j
  | item {items : List Json} {key : String} {j : Json} (h : (key, j) ∈ shape.fields.zip items) :
    Holds shape (.array items none) key j

/-- A document that has two entries for a field. -/
inductive Repeats (shape : Shape σ) : Json → Prop where
  | mk {entries rest : List (Text × Json)} {key : String} {j j' : Json} (hkey : key ∈ shape.fields)
    (h : entries.Perm ((⟨key, none⟩, j) :: (⟨key, none⟩, j') :: rest)) : Repeats shape (.object entries none)

/-- A document in which nothing stands for a field that has no default. -/
inductive Lacks (shape : Shape σ) : Json → Prop where
  | entry {entries : List (Text × Json)} {name : String} (hname : name ∈ shape.required)
    (h : ∀ e ∈ entries, e.1.text ≠ name) : Lacks shape (.object entries none)
  | item {items : List Json} {name : String} (hname : name ∈ shape.required)
    (h : name ∈ shape.fields.drop items.length) : Lacks shape (.array items none)

variable {shape} {start s s' : σ} {key : String} {j v : Json}

theorem exists_read_of_readFields {fields : List (String × Json)} (h : shape.readFields s fields = .ok s')
    (hfield : (key, v) ∈ fields) : ∃ s₁ s₂, shape.read s₁ key v = .ok s₂ := by
  induction fields generalizing s with
  | nil => cases hfield
  | cons field rest ih =>
    obtain ⟨s₁, hfirst, hrest⟩ := readFields_cons_eq_ok_iff.mp h
    rcases List.mem_cons.mp hfield with rfl | hfield
    · exact ⟨s, s₁, hfirst⟩
    · exact ih hrest hfield

/-- The items are taken as the first fields. -/
theorem of_readItems_eq_ok {names names' : List String} {items more : List Json}
    (h : shape.readItems s names items = .ok (s', names', more)) :
    names' = names.drop items.length ∧ more = items.drop names.length ∧
      shape.readFields s (names.zip items) = .ok s' := by
  fun_induction shape.readItems s names items with
  | case1 s name names j rest s₁ hread ih =>
    obtain ⟨hnames, hmore, hfields⟩ := ih h
    exact ⟨hnames, hmore, readFields_cons_eq_ok_iff.mpr ⟨s₁, hread, hfields⟩⟩
  | case2 => cases h
  | case3 s names items hends =>
    obtain ⟨rfl, rfl, rfl⟩ : s = s' ∧ names = names' ∧ items = more := by simpa using h
    cases names with
    | nil => exact ⟨by simp, by simp, by simp [readFields, pure, Except.pure]⟩
    | cons name names =>
      cases items with
      | nil => exact ⟨by simp, by simp, by simp [readFields, pure, Except.pure]⟩
      | cons j rest => exact absurd rfl (hends _ _ _ _ rfl)

/-- An array is read if its items are read as the first fields, and the others have defaults. -/
theorem of_decode_array_eq_ok {items : List Json} (h : shape.decode start (.array items none) = .ok s) :
    (∀ name ∈ shape.fields.drop items.length, name ∉ shape.required) ∧
      shape.readFields start (shape.fields.zip items) = .ok s := by
  obtain ⟨⟨s₁, names, more⟩, hitems, h⟩ := Read.bind_eq_ok_iff.mp h
  obtain ⟨hnames, -, hfields⟩ := of_readItems_eq_ok hitems
  rw [← hnames]
  cases more with
  | cons => cases names <;> cases h
  | nil =>
    cases names with
    | nil =>
      obtain rfl : s₁ = s := Except.ok.inj h
      exact ⟨by simp, hfields⟩
    | cons name names =>
      simp only [firstLacking] at h
      cases hfind : (name :: names).find? shape.required.contains with
      | some lacking =>
        simp only [hfind] at h
        cases h
      | none =>
        simp only [hfind] at h
        obtain rfl : s₁ = s := Except.ok.inj h
        exact ⟨fun name hname => by simpa using List.find?_eq_none.mp hfind name hname, hfields⟩

/-- Whatever stands for a field of a record that is read can be read as that field. -/
theorem exists_read_of_decode (h : shape.decode start j = .ok s) (hv : shape.Holds j key v) :
    ∃ s₁ s₂, shape.read s₁ key v = .ok s₂ := by
  cases hv with
  | entry hkey hv =>
    refine exists_read_of_readFields (decode_object_eq_ok_iff.mp h).fields (List.mem_filter.mpr ⟨?_, ?_⟩)
    · exact List.mem_map.mpr ⟨_, hv, rfl⟩
    · simpa using hkey
  | item hv => exact exists_read_of_readFields (of_decode_array_eq_ok h).2 hv

theorem not_repeats_of_decode (h : shape.decode start j = .ok s) : ¬shape.Repeats j := by
  rintro ⟨hkey, hperm⟩
  have honce := ((known_perm hperm).map _).nodup_iff.mp (decode_object_eq_ok_iff.mp h).once
  simp [known_cons_of_mem, hkey] at honce

theorem not_lacks_of_decode (h : shape.decode start j = .ok s) : ¬shape.Lacks j := by
  rintro (⟨hname, hnone⟩ | ⟨hname, hrest⟩)
  · obtain ⟨-, e, he, heq⟩ := mem_keys_iff.mp ((decode_object_eq_ok_iff.mp h).complete _ hname)
    exact hnone e he heq
  · exact (of_decode_array_eq_ok h).1 _ hrest hname

end Faults

end Shape

end TraitMock.Json
