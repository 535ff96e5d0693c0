import TraitMock.Modules.Source

namespace TraitMock

namespace Syntax

private theorem length_repeated {α : Type} (r : Reader α) (ts : List Token) :
    (Reader.repeated r ts).1.length + (Reader.repeated r ts).2.length ≤ ts.length := by
  fun_induction Reader.repeated r ts with
  | case1 => simp
  | case2 ts a rest hread hless more ih =>
    have hmore : more.1.length + more.2.length ≤ rest.length := ih
    simp only [List.length_cons]
    omega
  | case3 => simp

private theorem length_readTokens {n : Nat} {cs : List Char} {ts : List Token} (h : readTokens n cs = some ts) :
    ts.length < n := by
  induction n generalizing cs ts with
  | zero => simp [readTokens] at h
  | succ n ih =>
    rw [readTokens] at h
    split at h
    · cases h
    · split at h
      · obtain rfl := Option.some.inj h
        simp
      · split at h
        · cases h
        · obtain ⟨more, hmore, rfl⟩ := Option.map_eq_some_iff.mp h
          have hlength := ih hmore
          simp only [List.length_cons]
          omega

private theorem length_skipInterpreter (cs : List Char) : (skipInterpreter cs).length ≤ cs.length := by
  unfold skipInterpreter
  split
  · split
    · exact Nat.le_refl _
    · rename_i rest _
      have hdrop := (List.dropWhile_suffix (l := rest) (· ≠ '\n')).length_le
      simp only [List.length_cons]
      omega
  · exact Nat.le_refl _

/-- A text has no more items than characters. -/
theorem length_parse {source : String} {entries : List Entry} (h : parse source = some entries) :
    entries.length ≤ source.toList.length := by
  obtain ⟨ts, hts, hfile⟩ := Option.bind_eq_some_iff.mp h
  obtain ⟨⟨es, rest⟩, hread, hes⟩ := Option.bind_eq_some_iff.mp hfile
  obtain rfl : es = entries := Option.some.inj hes
  have hentries : es = (Reader.repeated Reader.entry ts).1 := by
    obtain ⟨_, _, hpure⟩ := Option.bind_eq_some_iff.mp hread
    exact (congrArg Prod.fst (Option.some.inj hpure)).symm
  have hrepeated := length_repeated Reader.entry ts
  have htokens := length_readTokens hts
  have hskip := length_skipInterpreter source.toList
  rw [hentries]
  omega

end Syntax

namespace Text

private theorem length_le_of_map_cons {c : Char} {x : Except Utf8Error (List Char)} {cs : List Char} {n : Nat}
    (h : (c :: ·) <$> x = .ok cs) (hx : ∀ {ds}, x = .ok ds → ds.length ≤ n) : cs.length ≤ n + 1 := by
  cases x with
  | error e => cases h
  | ok ds =>
    obtain rfl := Except.ok.inj h
    exact Nat.succ_le_succ (hx rfl)

private theorem length_charsOfBytes {index : Nat} {bytes : List UInt8} {cs : List Char}
    (h : charsOfBytes index bytes = .ok cs) : cs.length ≤ bytes.length := by
  fun_induction charsOfBytes index bytes generalizing cs with
  | case1 =>
    obtain rfl := Except.ok.inj h
    exact Nat.le_refl _
  -- one character for one, two, three or four bytes
  | case2 | case5 | case10 | case17 =>
    rename_i ih
    have hlength := length_le_of_map_cons h ih
    simp only [List.length_cons]
    omega
  | _ => cases h

/-- A text has no more characters than bytes. -/
theorem length_decodeUtf8 {bytes : List UInt8} {text : String} (h : decodeUtf8 bytes = .ok text) :
    text.toList.length ≤ bytes.length := by
  unfold decodeUtf8 at h
  cases hchars : charsOfBytes 0 bytes with
  | error e =>
    rw [hchars] at h
    cases h
  | ok cs =>
    rw [hchars] at h
    obtain rfl := Except.ok.inj h
    rw [String.toList_ofList]
    exact length_charsOfBytes hchars

end Text

namespace Files.Tree

variable {files : Tree}

private theorem length_le_size {place : Place} {bytes : List UInt8} (h : files.entry? place = some (.file bytes)) :
    bytes.length ≤ files.size := by
  have hlookup : files.entries.lookup place = some (.file bytes) := by
    unfold entry? at h
    split at h
    · simp at h
    · exact h
  unfold size
  generalize files.entries = entries at hlookup
  induction entries with
  | nil => simp at hlookup
  | cons x rest ih =>
    rw [List.foldr_cons]
    rw [List.lookup_cons] at hlookup
    split at hlookup
    · rw [Option.some.inj hlookup]
      exact Nat.le_add_right _ _
    · exact Nat.le_trans (ih hlookup) (Nat.le_add_left _ _)

/-- A text file is read from the place that its path leads to. -/
theorem readText_eq_ok {p : Path} {text : String} (h : files.readText p = .ok text) :
    ∃ place bytes, files.locate p = .ok place ∧ files.entry? place = some (.file bytes) ∧
      Text.decodeUtf8 bytes = .ok text := by
  unfold readText readBytes at h
  cases hplace : files.locate p with
  | error e =>
    rw [hplace] at h
    cases h
  | ok place =>
    rw [hplace] at h
    rcases hentry : files.entry? place with _ | bytes | _
    · simp [bind, Except.bind, hentry] at h
    · simp only [bind, Except.bind, hentry, pure, Except.pure] at h
      cases hdecode : Text.decodeUtf8 bytes with
      | error e =>
        rw [hdecode] at h
        cases h
      | ok s =>
        rw [hdecode] at h
        obtain rfl := Except.ok.inj h
        exact ⟨place, bytes, rfl, hentry, hdecode⟩
    · simp [bind, Except.bind, hentry] at h

end Files.Tree

namespace Modules.Source

variable {files : Files.Tree} {p : Path} {source : Source}

/-- A source file is read from the text of the file. -/
theorem exists_text (h : read files p = .ok source) :
    ∃ text, files.readText p = .ok text ∧ Syntax.parse text = some source.entries ∧ source.path = p := by
  unfold read at h
  split at h
  · rename_i text htext
    unfold parse at h
    split at h
    · rename_i entries hparse
      obtain rfl := Except.ok.inj h
      exact ⟨text, htext, hparse, rfl⟩
    · cases h
  · cases h

/-- A source file is read from the place that its path leads to. -/
theorem read_eq_ok (h : read files p = .ok source) :
    ∃ place bytes text, files.locate p = .ok place ∧ files.entry? place = some (.file bytes) ∧
      Text.decodeUtf8 bytes = .ok text ∧ Syntax.parse text = some source.entries ∧ source.path = p := by
  obtain ⟨text, htext, hparse, hpath⟩ := exists_text h
  obtain ⟨place, bytes, hplace, hentry, hdecode⟩ := Files.Tree.readText_eq_ok htext
  exact ⟨place, bytes, text, hplace, hentry, hdecode, hparse, hpath⟩

/-- A file has no more items than all files have bytes. -/
theorem length_entries (h : read files p = .ok source) : source.entries.length ≤ files.size := by
  obtain ⟨place, bytes, text, _, hentry, hdecode, hparse, _⟩ := read_eq_ok h
  have hbytes := Files.Tree.length_le_size hentry
  have hchars := Text.length_decodeUtf8 hdecode
  have hitems := Syntax.length_parse hparse
  omega

end Modules.Source

end TraitMock
