import Mathlib.Data.List.Basic
import TraitMock.Proofs.Json.Texts

namespace TraitMock.Json

open TraitMock.Json.Parser (hexDigit?)

/-- A value that some text stands for. -/
def IsWritable (j : Json) : Prop := ∃ written, Spells j written

theorem IsWritable.exists_isTextOf {j : Json} (h : IsWritable j) : ∃ text, IsTextOf text j := by
  obtain ⟨written, hwritten⟩ := h
  exact ⟨String.ofList written, [], written, [], isGap_nil, hwritten, isGap_nil, by simp⟩

theorem isWritable_bool (b : Bool) : IsWritable (.bool b) := by
  cases b with
  | false => exact ⟨_, .false⟩
  | true => exact ⟨_, .true⟩

section Strings

theorem hexDigit?_digitChar {n : Nat} (h : n < 16) : hexDigit? n.digitChar = some n := by
  have hall : ∀ n < 16, hexDigit? (Nat.digitChar n) = some n := by decide
  exact hall n h

private theorem exists_hexText {n : Nat} (h : n < 0x100) : ∃ digits, HexText n digits := by
  have hzero : hexDigit? '0' = some 0 := by decide
  have hhigh := hexDigit?_digitChar (show n / 16 < 16 by omega)
  have hlow := hexDigit?_digitChar (Nat.mod_lt n (show 16 > 0 by omega))
  have hn : 16 * (16 * (16 * 0 + 0) + n / 16) + n % 16 = n := by omega
  have hdigits := HexText.mk hzero hzero hhigh hlow
  rw [hn] at hdigits
  exact ⟨_, hdigits⟩

private theorem exists_charText (c : Char) : ∃ written, CharText c written := by
  by_cases hcontrol : c.toNat < 32
  · -- a control character cannot be written but by its number
    obtain ⟨digits, h⟩ := exists_hexText (show c.toNat < 0x100 by omega)
    exact ⟨_, .number h⟩
  · by_cases hquote : c = '"'
    · exact ⟨['\\', '"'], .short (by rw [hquote]; rfl)⟩
    · by_cases hslash : c = '\\'
      · exact ⟨['\\', '\\'], .short (by rw [hslash]; rfl)⟩
      · exact ⟨[c], .plain (by omega) hquote hslash⟩

theorem exists_stringText (cs : List Char) : ∃ written, StringText cs written := by
  induction cs with
  | nil => exact ⟨[], .nil⟩
  | cons c cs ih =>
    obtain ⟨written, hc⟩ := exists_charText c
    obtain ⟨rest, hcs⟩ := ih
    exact ⟨written ++ rest, .cons hc hcs⟩

theorem isWritable_string (s : String) : IsWritable (.string ⟨s, none⟩) := by
  obtain ⟨written, h⟩ := exists_stringText s.toList
  exact ⟨_, .string h⟩

end Strings

section Parts

theorem SpellsItems.isWritable {items : List Json} {written : List Char} (h : SpellsItems items written) :
    ∀ j ∈ items, IsWritable j := by
  cases h with
  | last _ h _ => exact List.forall_mem_singleton.mpr ⟨_, h⟩
  | more _ h _ hrest => exact List.forall_mem_cons.mpr ⟨⟨_, h⟩, hrest.isWritable⟩

theorem SpellsEntries.isWritable {entries : List (Text × Json)} {written : List Char}
    (h : SpellsEntries entries written) : ∀ e ∈ entries, e.1.fault? = none ∧ IsWritable e.2 := by
  cases h with
  | last _ _ _ _ h _ => exact List.forall_mem_singleton.mpr ⟨rfl, _, h⟩
  | more _ _ _ _ h _ hrest => exact List.forall_mem_cons.mpr ⟨⟨rfl, _, h⟩, hrest.isWritable⟩

private theorem exists_spellsItems {j : Json} {items : List Json} (h : ∀ i ∈ j :: items, IsWritable i) :
    ∃ written, SpellsItems (j :: items) written := by
  induction items generalizing j with
  | nil =>
    obtain ⟨written, hj⟩ := h j List.mem_cons_self
    exact ⟨_, .last isGap_nil hj isGap_nil⟩
  | cons i items ih =>
    obtain ⟨⟨written, hj⟩, hitems⟩ := List.forall_mem_cons.mp h
    obtain ⟨rest, hrest⟩ := ih hitems
    exact ⟨_, .more isGap_nil hj isGap_nil hrest⟩

private theorem exists_spellsEntries {first : Text × Json} {entries : List (Text × Json)}
    (h : ∀ e ∈ first :: entries, e.1.fault? = none ∧ IsWritable e.2) :
    ∃ written, SpellsEntries (first :: entries) written := by
  induction entries generalizing first with
  | nil =>
    obtain ⟨⟨key, fault?⟩, j⟩ := first
    obtain ⟨⟨rfl, written, hj⟩, -⟩ := List.forall_mem_cons.mp h
    obtain ⟨name, hkey⟩ := exists_stringText key.toList
    exact ⟨_, .last isGap_nil hkey isGap_nil isGap_nil hj isGap_nil⟩
  | cons next entries ih =>
    obtain ⟨⟨key, fault?⟩, j⟩ := first
    obtain ⟨⟨rfl, written, hj⟩, hentries⟩ := List.forall_mem_cons.mp h
    obtain ⟨name, hkey⟩ := exists_stringText key.toList
    obtain ⟨rest, hrest⟩ := ih hentries
    exact ⟨_, .more isGap_nil hkey isGap_nil isGap_nil hj isGap_nil hrest⟩

theorem isWritable_array_iff {items : List Json} : IsWritable (.array items none) ↔ ∀ j ∈ items, IsWritable j := by
  constructor
  · rintro ⟨_, h⟩
    cases h with
    | emptyArray => nofun
    | array h => exact h.isWritable
  · intro h
    cases items with
    | nil => exact ⟨_, .emptyArray isGap_nil⟩
    | cons j items =>
      obtain ⟨written, hwritten⟩ := exists_spellsItems h
      exact ⟨_, .array hwritten⟩

theorem isWritable_object_iff {entries : List (Text × Json)} :
    IsWritable (.object entries none) ↔ ∀ e ∈ entries, e.1.fault? = none ∧ IsWritable e.2 := by
  constructor
  · rintro ⟨_, h⟩
    cases h with
    | emptyObject => nofun
    | object h => exact h.isWritable
  · intro h
    cases entries with
    | nil => exact ⟨_, .emptyObject isGap_nil⟩
    | cons e entries =>
      obtain ⟨written, hwritten⟩ := exists_spellsEntries h
      exact ⟨_, .object hwritten⟩

end Parts

end TraitMock.Json
