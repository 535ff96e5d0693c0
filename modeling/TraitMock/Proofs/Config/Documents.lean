import TraitMock.Config
import TraitMock.Proofs.Json.Records

namespace TraitMock

open Json (Read readList Text)

theorem mem_entries_recordJson {fields : List (String × Json)} {key : String} {j : Json} :
    (⟨key, none⟩, j) ∈ (recordJson fields).entries ↔ (key, j) ∈ fields := by
  simp [recordJson, Json.entries]

theorem isWritable_recordJson {fields : List (String × Json)} (h : ∀ field ∈ fields, Json.IsWritable field.2) :
    Json.IsWritable (recordJson fields) := by
  refine Json.isWritable_object_iff.mpr fun e he => ?_
  obtain ⟨field, hfield, rfl⟩ := List.mem_map.mp he
  exact ⟨rfl, h field hfield⟩

theorem isWritable_optionJson {α : Type} {write : α → Json} (h : ∀ a, Json.IsWritable (write a)) (x : Option α) :
    Json.IsWritable (optionJson write x) := by
  cases x with
  | none => exact ⟨_, .null⟩
  | some a => exact h a

namespace SharedSettings

/-- One change to how the shared settings are written. -/
abbrev Edit : Json → Json → Prop := shape.Edit (toJson {}) fun _ _ _ => False

theorem decode_toJson (s : SharedSettings) : shape.decode {} s.toJson = .ok s := by
  obtain ⟨alias?, onHelpers, slices, crate, path⟩ := s
  cases alias? <;> rfl

theorem isWritable_toJson (s : SharedSettings) : Json.IsWritable s.toJson := by
  refine isWritable_recordJson ?_
  simp only [List.forall_mem_cons]
  exact ⟨isWritable_optionJson Json.isWritable_string _, Json.isWritable_bool _, Json.isWritable_bool _,
    Json.isWritable_string _, Json.isWritable_string _, nofun⟩

theorem independent : shape.Independent := by
  intro s s₁ s₂ key key' j j' hkey hkey' hne h h'
  simp only [shape, List.mem_cons, List.not_mem_nil, or_false] at hkey hkey'
  rcases hkey with rfl | rfl | rfl | rfl | rfl <;> rcases hkey' with rfl | rfl | rfl | rfl | rfl <;>
    try contradiction
  -- two different fields, and so two assignments to different places
  all_goals
    obtain ⟨a, ha, rfl⟩ := Read.assign_eq_ok_iff.mp h
    obtain ⟨a', ha', rfl⟩ := Read.assign_eq_ok_iff.mp h'
    exact ⟨_, Read.assign_eq_ok_iff.mpr ⟨a', ha', rfl⟩, Read.assign_eq_ok_iff.mpr ⟨a, ha, rfl⟩⟩

theorem tolerant : shape.Tolerant {} (toJson {}) fun _ _ _ => False where
  independent := independent
  default {key j} h _ := by
    simp only [toJson, mem_entries_recordJson, List.mem_cons, List.not_mem_nil, or_false, Prod.mk.injEq] at h
    rcases h with ⟨rfl, rfl⟩ | ⟨rfl, rfl⟩ | ⟨rfl, rfl⟩ | ⟨rfl, rfl⟩ | ⟨rfl, rfl⟩ <;> exact ⟨by decide, rfl⟩
  part h := h.elim

end SharedSettings

namespace MockEntry

/-- One change to how a mock is written. -/
abbrev Edit : Json → Json → Prop := shape.Edit (toJson {}) fun _ _ _ => False

theorem decode_toJson (m : MockEntry) : shape.decode {} m.toJson = .ok m := by
  obtain ⟨source, destination, traitName, output?, name?, onHelpers?⟩ := m
  cases output? <;> cases name? <;> cases onHelpers? <;> rfl

theorem isWritable_toJson (m : MockEntry) : Json.IsWritable m.toJson := by
  refine isWritable_recordJson ?_
  simp only [List.forall_mem_cons]
  exact ⟨Json.isWritable_string _, Json.isWritable_string _, Json.isWritable_string _,
    isWritable_optionJson Json.isWritable_string _, isWritable_optionJson Json.isWritable_string _,
    isWritable_optionJson Json.isWritable_bool _, nofun⟩

theorem independent : shape.Independent := by
  intro m m₁ m₂ key key' j j' hkey hkey' hne h h'
  simp only [shape, List.mem_cons, List.not_mem_nil, or_false] at hkey hkey'
  rcases hkey with rfl | rfl | rfl | rfl | rfl | rfl <;> rcases hkey' with rfl | rfl | rfl | rfl | rfl | rfl <;>
    try contradiction
  all_goals
    obtain ⟨a, ha, rfl⟩ := Read.assign_eq_ok_iff.mp h
    obtain ⟨a', ha', rfl⟩ := Read.assign_eq_ok_iff.mp h'
    exact ⟨_, Read.assign_eq_ok_iff.mpr ⟨a', ha', rfl⟩, Read.assign_eq_ok_iff.mpr ⟨a, ha, rfl⟩⟩

theorem tolerant : shape.Tolerant {} (toJson {}) fun _ _ _ => False where
  independent := independent
  default {key j} h hoptional := by
    simp only [toJson, mem_entries_recordJson, List.mem_cons, List.not_mem_nil, or_false, Prod.mk.injEq] at h
    rcases h with ⟨rfl, rfl⟩ | ⟨rfl, rfl⟩ | ⟨rfl, rfl⟩ | ⟨rfl, rfl⟩ | ⟨rfl, rfl⟩ | ⟨rfl, rfl⟩
    · exact absurd (by decide) hoptional
    · exact absurd (by decide) hoptional
    · exact absurd (by decide) hoptional
    · exact ⟨by decide, rfl⟩
    · exact ⟨by decide, rfl⟩
    · exact ⟨by decide, rfl⟩
  part h := h.elim

end MockEntry

namespace Config

/-- Another way to write the shared settings or the mocks. -/
inductive Part : String → Json → Json → Prop where
  | shared {j j' : Json} (h : SharedSettings.Edit j j') : Part "generator" j j'
  | mock {front rest : List Json} {j j' : Json} (h : MockEntry.Edit j j') :
    Part "mocks" (.array (front ++ j :: rest) none) (.array (front ++ j' :: rest) none)

/-- One change to how a configuration is written: in the order of the keys of an object, in the keys with defaults that
    it has, or in the keys that are not known. -/
abbrev Edit : Json → Json → Prop := shape.Edit (toJson {}) Part

/-- The ways to write a configuration. -/
def IsWrittenAs (c : Config) : Json → Prop := Relation.ReflTransGen Edit c.toJson

theorem decode_toJson (c : Config) : shape.decode {} c.toJson = .ok c := by
  have hmocks : readList (MockEntry.shape.decode {}) (.array (c.mocks.map MockEntry.toJson) none) = .ok c.mocks := by
    rw [Json.readList_eq_ok_iff, List.forall₂_map_left_iff]
    exact List.forall₂_same.mpr fun m _ => m.decode_toJson
  have hreadShared : shape.read {} "generator" c.shared.toJson = .ok { shared := c.shared } :=
    Read.assign_eq_ok_iff.mpr ⟨c.shared, c.shared.decode_toJson, rfl⟩
  have hreadMocks : shape.read { shared := c.shared } "mocks" (.array (c.mocks.map MockEntry.toJson) none) = .ok c :=
    Read.assign_eq_ok_iff.mpr ⟨c.mocks, hmocks, rfl⟩
  refine Json.Shape.decode_object_eq_ok_iff.mpr ⟨?_, show ["generator", "mocks"].Nodup by decide, nofun, ?_⟩
  · simp [Json.Shape.IsSound, shape]
  · exact Json.Shape.readFields_cons_eq_ok_iff.mpr
      ⟨_, hreadShared, Json.Shape.readFields_cons_eq_ok_iff.mpr ⟨_, hreadMocks, rfl⟩⟩

theorem isWritable_toJson (c : Config) : Json.IsWritable c.toJson := by
  refine isWritable_recordJson ?_
  simp only [List.forall_mem_cons]
  refine ⟨c.shared.isWritable_toJson, Json.isWritable_array_iff.mpr fun j hj => ?_, nofun⟩
  obtain ⟨m, -, rfl⟩ := List.mem_map.mp hj
  exact m.isWritable_toJson

private theorem isWritable_of_part {key : String} {j j' : Json} (h : Part key j j') (hj : Json.IsWritable j) :
    Json.IsWritable j' := by
  cases h with
  | shared h => exact h.isWritable (fun _ _ _ h => h.elim) hj
  | @mock front rest m m' h =>
    rw [Json.isWritable_array_iff, List.forall_mem_append, List.forall_mem_cons] at hj ⊢
    exact ⟨hj.1, h.isWritable (fun _ _ _ h => h.elim) hj.2.1, hj.2.2⟩

/-- However a configuration is written, there is a text for it. -/
theorem IsWrittenAs.exists_isTextOf {c : Config} {j : Json} (h : c.IsWrittenAs j) : ∃ text, Json.IsTextOf text j := by
  have hwritable : Json.IsWritable j := by
    induction h with
    | refl => exact c.isWritable_toJson
    | tail _ hedit ih => exact hedit.isWritable (fun _ _ _ => isWritable_of_part) ih
  exact hwritable.exists_isTextOf

theorem independent : shape.Independent := by
  intro c c₁ c₂ key key' j j' hkey hkey' hne h h'
  simp only [shape, List.mem_cons, List.not_mem_nil, or_false] at hkey hkey'
  rcases hkey with rfl | rfl <;> rcases hkey' with rfl | rfl <;>
    try contradiction
  all_goals
    obtain ⟨a, ha, rfl⟩ := Read.assign_eq_ok_iff.mp h
    obtain ⟨a', ha', rfl⟩ := Read.assign_eq_ok_iff.mp h'
    exact ⟨_, Read.assign_eq_ok_iff.mpr ⟨a', ha', rfl⟩, Read.assign_eq_ok_iff.mpr ⟨a, ha, rfl⟩⟩

private theorem read_of_part {key : String} {j j' : Json} {c c' : Config} (h : Part key j j')
    (hread : shape.read c key j = .ok c') : shape.read c key j' = .ok c' := by
  cases h with
  | shared h =>
    obtain ⟨s, hs, rfl⟩ := Read.assign_eq_ok_iff.mp hread
    exact Read.assign_eq_ok_iff.mpr ⟨s, Json.Shape.decode_of_edit SharedSettings.tolerant h hs, rfl⟩
  | mock h =>
    obtain ⟨ms, hms, rfl⟩ := Read.assign_eq_ok_iff.mp hread
    have hentry := fun m hm => Json.Shape.decode_of_edit (s := m) MockEntry.tolerant h hm
    exact Read.assign_eq_ok_iff.mpr ⟨ms, Json.readList_of_item hentry hms, rfl⟩

theorem tolerant : shape.Tolerant {} (toJson {}) Part where
  independent := independent
  default {key j} h _ := by
    simp only [toJson, mem_entries_recordJson, List.mem_cons, List.not_mem_nil, or_false, Prod.mk.injEq] at h
    rcases h with ⟨rfl, rfl⟩ | ⟨rfl, rfl⟩ <;> exact ⟨by decide, rfl⟩
  part h := ⟨by cases h <;> decide, fun _ _ => read_of_part h⟩

private theorem decode_of_isWrittenAs {c : Config} {j : Json} (h : c.IsWrittenAs j) : shape.decode {} j = .ok c := by
  induction h with
  | refl => exact c.decode_toJson
  | tail _ hedit ih => exact Json.Shape.decode_of_edit tolerant hedit ih

/-- A document that has a key twice, or a mock without its source, its destination or its trait. -/
inductive IsFaulty (j : Json) : Prop where
  | keyTwice (h : shape.Repeats j)
  | sharedKeyTwice {s : Json} (hs : shape.Holds j "generator" s) (h : SharedSettings.shape.Repeats s)
  | mockKeyTwice {mocks : List Json} {m : Json} (hmocks : shape.Holds j "mocks" (.array mocks none)) (hm : m ∈ mocks)
    (h : MockEntry.shape.Repeats m)
  | mockLacksKey {mocks : List Json} {m : Json} (hmocks : shape.Holds j "mocks" (.array mocks none)) (hm : m ∈ mocks)
    (h : MockEntry.shape.Lacks m)

theorem exists_decode_mock {j m : Json} {mocks : List Json} {c : Config} (h : shape.decode {} j = .ok c)
    (hmocks : shape.Holds j "mocks" (.array mocks none)) (hm : m ∈ mocks) :
    ∃ entry, MockEntry.shape.decode {} m = .ok entry := by
  obtain ⟨c₁, c₂, hread⟩ := Json.Shape.exists_read_of_decode h hmocks
  obtain ⟨ms, hms, -⟩ := Read.assign_eq_ok_iff.mp hread
  exact Json.exists_read_of_readList hms hm

private theorem decode_ne_ok_of_isFaulty {j : Json} {c : Config} (h : IsFaulty j) : shape.decode {} j ≠ .ok c := by
  intro hdecode
  cases h with
  | keyTwice h => exact Json.Shape.not_repeats_of_decode hdecode h
  | sharedKeyTwice hs h =>
    obtain ⟨c₁, c₂, hread⟩ := Json.Shape.exists_read_of_decode hdecode hs
    obtain ⟨s, hs, -⟩ := Read.assign_eq_ok_iff.mp hread
    exact Json.Shape.not_repeats_of_decode hs h
  | mockKeyTwice hmocks hm h =>
    obtain ⟨entry, hentry⟩ := exists_decode_mock hdecode hmocks hm
    exact Json.Shape.not_repeats_of_decode hentry h
  | mockLacksKey hmocks hm h =>
    obtain ⟨entry, hentry⟩ := exists_decode_mock hdecode hmocks hm
    exact Json.Shape.not_lacks_of_decode hentry h

section Files

variable {files : Files.Tree} {path : Path} {text : String} {j : Json}

private theorem decode_of_isTextOf (h : Json.IsTextOf text j) : decode text = shape.decode {} j := by
  rw [decode, h.parse_eq, Json.Document.decode]
  cases shape.decode {} j <;> rfl

private theorem ofFile_of_isTextOf (htext : Json.IsTextOf text j) (hfile : files.readText path = .ok text) :
    ofFile files path = match shape.decode {} j with
      | .ok c => .ok c
      | .error e => .error (.parse path e) := by
  rw [ofFile, hfile]
  simp only [decode_of_isTextOf htext]
  cases shape.decode {} j <;> rfl

/-- A file that holds a configuration, in whatever way it is written, is read as that configuration. A file with a
    faulty document is not read, and the directory in which it lies has the defaults. -/
theorem ofFile_of_document (htext : Json.IsTextOf text j) (hfile : files.readText path = .ok text) :
    (∀ c : Config, c.IsWrittenAs j →
      ofFile files path = .ok c ∧ ∀ dir : Path, dir.join fileName = path → load files dir = c) ∧
    (IsFaulty j →
      (∃ e, ofFile files path = .error (.parse path e)) ∧
        ∀ dir : Path, dir.join fileName = path → load files dir = {}) := by
  have hread := ofFile_of_isTextOf htext hfile
  constructor
  · intro c hc
    rw [decode_of_isWrittenAs hc] at hread
    exact ⟨hread, fun dir hdir => by rw [load, hdir, hread]⟩
  · intro hfaulty
    cases hdecode : shape.decode {} j with
    | ok c => exact absurd hdecode (decode_ne_ok_of_isFaulty hfaulty)
    | error e =>
      rw [hdecode] at hread
      exact ⟨⟨e, hread⟩, fun dir hdir => by rw [load, hdir, hread]⟩

def shortText : String :=
  "\x7b\"mocks\":[\x7b\"x\":[],\"dst\":\"b\",\"trait\":\"T\",\"src\":\"a\"\x7d]\x7d"

def emptyMockText : String := "\x7b\"mocks\":[\x7b\x7d]\x7d"

/-- A tree with a configuration of one mock, and in a directory another one whose mock has no key. -/
def twoConfigs : Files.Tree :=
  ⟨[(["mockkit.json"], .file (Text.encodeUtf8 shortText)), (["f"], .directory),
    (["f", "mockkit.json"], .file (Text.encodeUtf8 emptyMockText))]⟩

def oneMock : Config := { mocks := [{ source := "a", destination := "b", traitName := "T" }] }

/-- A configuration of one mock and nothing else. -/
def mockDocument (m : Json) : Json := .object [(⟨"mocks", none⟩, .array [m] none)] none

def shortDocument : Json :=
  mockDocument (.object [(⟨"x", none⟩, .array [] none), (⟨"dst", none⟩, stringJson "b"),
    (⟨"trait", none⟩, stringJson "T"), (⟨"src", none⟩, stringJson "a")] none)

private theorem isTextOf_shortText : Json.IsTextOf shortText shortDocument := by
  have hgap := Json.isGap_nil
  have hplain := fun s : String => Json.stringText_self s.toList
  have hentries := Json.SpellsEntries.more hgap (hplain "x" (by decide)) hgap hgap (.emptyArray hgap) hgap
    (.more hgap (hplain "dst" (by decide)) hgap hgap (.string (hplain "b" (by decide))) hgap
      (.more hgap (hplain "trait" (by decide)) hgap hgap (.string (hplain "T" (by decide))) hgap
        (.last hgap (hplain "src" (by decide)) hgap hgap (.string (hplain "a" (by decide))) hgap)))
  have hmocks := Json.Spells.array (.last hgap (.object hentries) hgap)
  have hdocument := Json.Spells.object (.last hgap (hplain "mocks" (by decide)) hgap hgap hmocks hgap)
  exact ⟨[], _, [], hgap, hdocument, hgap, by decide⟩

private theorem isTextOf_emptyMockText : Json.IsTextOf emptyMockText (mockDocument (.object [] none)) := by
  have hgap := Json.isGap_nil
  have hmocks := Json.Spells.array (.last hgap (.emptyObject hgap) hgap)
  have hdocument := Json.Spells.object
    (.last hgap (Json.stringText_self "mocks".toList (by decide)) hgap hgap hmocks hgap)
  exact ⟨[], _, [], hgap, hdocument, hgap, by decide⟩

/-- The mock has lost the keys that hold their defaults, the others have changed places, and a new one stands in
    front. -/
theorem oneMock_isWrittenAs : oneMock.IsWrittenAs shortDocument := by
  have hwithin : ∀ m m', MockEntry.Edit m m' → Edit (mockDocument m) (mockDocument m') :=
    fun m m' h => .within (@Part.mock [] [] m m' h)
  have hdefault : ∀ key ∈ ["output", "name", "on_helpers"], (⟨key, none⟩, .null) ∈ (MockEntry.toJson {}).entries := by
    simp [MockEntry.toJson, mem_entries_recordJson, optionJson]
  refine .head (.leaveOut (by simp [toJson, mem_entries_recordJson, oneMock]) (by decide)) ?_
  refine .head (hwithin _ _ (.permute (@List.perm_append_comm _ [_, _, _] [_, _, _]))) ?_
  refine .head (hwithin _ _ (.leaveOut (hdefault "output" (by decide)) (by decide))) ?_
  refine .head (hwithin _ _ (.leaveOut (hdefault "name" (by decide)) (by decide))) ?_
  refine .head (hwithin _ _ (.leaveOut (hdefault "on_helpers" (by decide)) (by decide))) ?_
  refine .head (hwithin _ _ (.permute (@List.perm_append_comm _ [_] [_, _]))) ?_
  exact .single (hwithin _ _ (.putIn (by decide) ⟨_, .emptyArray Json.isGap_nil⟩))

private theorem isFaulty_emptyMock : IsFaulty (mockDocument (.object [] none)) :=
  .mockLacksKey (.entry (by decide) List.mem_cons_self) List.mem_cons_self
    (@Json.Shape.Lacks.entry _ _ _ "src" (by decide) nofun)

theorem ofFile_of_twoConfigs : (ofFile twoConfigs ⟨"/mockkit.json"⟩ = .ok oneMock ∧ load twoConfigs ⟨"/"⟩ = oneMock) ∧
    (∃ e, ofFile twoConfigs ⟨"/f/mockkit.json"⟩ = .error (.parse ⟨"/f/mockkit.json"⟩ e)) ∧
    load twoConfigs ⟨"/f"⟩ = {} := by
  have hshort : twoConfigs.readText ⟨"/mockkit.json"⟩ = .ok shortText := by decide +kernel
  have hempty : twoConfigs.readText ⟨"/f/mockkit.json"⟩ = .ok emptyMockText := by decide +kernel
  obtain ⟨hread, hload⟩ := (ofFile_of_document isTextOf_shortText hshort).1 oneMock oneMock_isWrittenAs
  obtain ⟨herror, hdefaults⟩ := (ofFile_of_document isTextOf_emptyMockText hempty).2 isFaulty_emptyMock
  exact ⟨⟨hread, hload ⟨"/"⟩ (by decide)⟩, herror, hdefaults ⟨"/f"⟩ (by decide)⟩

end Files

end Config

end TraitMock
