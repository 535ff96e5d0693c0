import TraitMock.Proofs.Syntax.Spelling
import TraitMock.Text.Quoted
import Mathlib.Tactic.IntervalCases

namespace TraitMock.Syntax

section Characters

theorem isNameContinue_ne {c d : Char} (hc : Text.isNameContinue c = true) (hd : Text.isNameContinue d = false) :
    c ≠ d := by
  rintro rfl
  rw [hc] at hd
  cases hd

private theorem isSpace_cases {c : Char} (h : isSpace c = true) : c ∈ [' ', '\t', '\n', '\x0b', '\x0c', '\r'] := by
  have hn : c = ' ' ∨ 9 ≤ c.toNat ∧ c.toNat ≤ 13 := by simpa [isSpace] using h
  rcases hn with rfl | ⟨hlow, hhigh⟩
  · simp
  · have hc : c = Char.ofNat c.toNat := (Char.ofNat_toNat c).symm
    generalize c.toNat = n at hlow hhigh hc
    subst hc
    interval_cases n <;> decide

theorem isSpace_of_isNameContinue {c : Char} (h : Text.isNameContinue c = true) : isSpace c = false := by
  have hblanks : [' ', '\t', '\n', '\x0b', '\x0c', '\r'].all (!Text.isNameContinue ·) = true := by decide
  cases hspace : isSpace c with
  | false => rfl
  | true =>
    have hnot := List.all_eq_true.mp hblanks c (isSpace_cases hspace)
    simp [h] at hnot

theorem isNameContinue_of_isAlphanum {c : Char} (h : c.isAlphanum = true) : Text.isNameContinue c = true := by
  have hn : (65 ≤ c.toNat ∧ c.toNat ≤ 90 ∨ 97 ≤ c.toNat ∧ c.toNat ≤ 122) ∨ 48 ≤ c.toNat ∧ c.toNat ≤ 57 := by
    delta Char.isAlphanum Char.isAlpha Char.isUpper Char.isLower Char.isDigit at h
    simpa [UInt32.le_iff_toNat_le] using h
  have hascii : c.toNat < 128 := by omega
  simp [Text.isNameContinue, Text.classOf, hascii, h]

private theorem isNameStart_of_isDigit {c : Char} (h : c.isDigit = true) : Text.isNameStart c = false := by
  have hn : 48 ≤ c.toNat ∧ c.toNat ≤ 57 := by simpa [Char.isDigit, UInt32.le_iff_toNat_le] using h
  have hc : c = Char.ofNat c.toNat := (Char.ofNat_toNat c).symm
  obtain ⟨hlow, hhigh⟩ := hn
  generalize c.toNat = n at hlow hhigh hc
  subst hc
  interval_cases n <;> decide

end Characters

section Words

/-- A name without a mark in front: its characters continue a name, and the first one starts it. -/
def IsPlain (w : List Char) : Prop := (∃ c ∈ w.head?, Text.isNameStart c = true) ∧ ∀ c ∈ w, Text.isNameContinue c = true

instance : DecidablePred IsPlain := fun w =>
  decidable_of_iff (w.head?.any Text.isNameStart = true ∧ w.all Text.isNameContinue = true) 
    (and_congr (Option.any_eq_true _ _) List.all_eq_true)

theorem readRawStart_eq_none {n : Nat} {cs : List Char} (h : ∀ c ∈ cs.head?, c ≠ '"' ∧ c ≠ '#') :
    readRawStart n cs = none := by
  rw [readRawStart.eq_def]
  split <;> simp_all

private theorem readMarked_eq_none {cs mark : List Char} {raw : Bool}
    (h : ∀ rest, cs = mark ++ rest → ∀ c ∈ rest.head?, c ≠ '"' ∧ c ≠ '#') : readMarked cs mark raw = none := by
  unfold readMarked
  split
  · rename_i hpre
    obtain ⟨rest, rfl⟩ := List.isPrefixOf_iff_prefix.mp hpre
    have hrest := h rest rfl
    rw [List.drop_left]
    dsimp only
    split
    · rw [readRawStart_eq_none hrest]
      rfl
    · split
      · simp at hrest
      · rfl
  · rfl

theorem head_of_separates {more : List Char} (h : separates more = true) :
    ∀ c ∈ more.head?, Text.isNameContinue c = false ∧ c ≠ '"' ∧ c ≠ '\'' ∧ c ≠ '#' := by
  intro c hc
  cases more with
  | nil => simp at hc
  | cons d rest =>
    obtain rfl : d = c := by simpa using hc
    by_cases hdot : d = '.'
    · subst hdot
      decide
    · have hd : separates (d :: rest) = (!Text.isNameContinue d && !(['"', '\'', '#'].contains d)) := by
        rw [separates.eq_def]
        split <;> simp_all
      rw [hd] at h
      simpa using h

theorem readName_append {w more : List Char} (hw : ∀ c ∈ w, Text.isNameContinue c = true)
    (hmore : separates more = true) : readName (w ++ more) = (w, more) := by
  have hhead := head_of_separates hmore
  unfold readName
  rw [List.takeWhile_append_of_pos hw, List.dropWhile_append_of_pos hw]
  cases more with
  | nil => simp
  | cons d rest =>
    have hd : Text.isNameContinue d = false := (hhead d rfl).1
    simp [hd]

/-- What stands behind a part of a name makes no quote of it. -/
theorem head_of_name {w more : List Char} (hw : ∀ c ∈ w, Text.isNameContinue c = true)
    (hmore : separates more = true) : ∀ c ∈ (w ++ more).head?, c ≠ '"' ∧ c ≠ '\'' ∧ c ≠ '#' := by
  intro c hc
  cases w with
  | nil => exact (head_of_separates hmore c hc).2
  | cons d w =>
    obtain rfl : d = c := by simpa using hc
    have hd : Text.isNameContinue d = true := hw d (by simp)
    exact ⟨isNameContinue_ne hd (by decide), isNameContinue_ne hd (by decide), isNameContinue_ne hd (by decide)⟩

/-- No letters in front of a quote: they belong to a name. -/
theorem readMarked_name {w more mark : List Char} {raw : Bool} (hw : ∀ c ∈ w, Text.isNameContinue c = true)
    (hmore : separates more = true) (hmark : ∀ c ∈ mark, Text.isNameContinue c = true) :
    readMarked (w ++ more) mark raw = none := by
  refine readMarked_eq_none fun rest hrest => ?_
  rcases List.append_eq_append_iff.mp hrest with ⟨m, rfl, rfl⟩ | ⟨m, rfl, rfl⟩
  · cases m with
    | nil => exact fun c hc => ⟨(head_of_separates hmore c hc).2.1, (head_of_separates hmore c hc).2.2.2⟩
    | cons d m =>
      have hd : Text.isNameContinue d = true := hmark d (by simp)
      rw [(head_of_separates hmore d rfl).1] at hd
      cases hd
  · have hm : ∀ c ∈ m, Text.isNameContinue c = true := fun c hc => hw c (List.mem_append_right mark hc)
    exact fun c hc => ⟨(head_of_name hm hmore c hc).1, (head_of_name hm hmore c hc).2.2⟩

theorem isName_quoteMarks {m : List Char × Bool} (hm : m ∈ quoteMarks) : ∀ c ∈ m.1, Text.isNameContinue c = true := by
  have hall : quoteMarks.all (fun m => m.1.all Text.isNameContinue) = true := by decide
  exact List.all_eq_true.mp (List.all_eq_true.mp hall m hm)

theorem readToken_plain {w more : List Char} (hw : IsPlain w) (hmore : separates more = true) :
    readToken (w ++ more) = some (.word, w, more) := by
  obtain ⟨⟨c, hc, hstart⟩, hall⟩ := hw
  have hmarks : quoteMarks.findSome? (fun m => readMarked (w ++ more) m.1 m.2) = none := by
    exact List.findSome?_eq_none_iff.mpr fun m hm => readMarked_name hall hmore (isName_quoteMarks hm)
  have hname := readName_append hall hmore
  cases w with
  | nil => simp at hc
  | cons d w =>
    obtain rfl : d = c := by simpa using hc
    obtain ⟨hcont, hrest⟩ := List.forall_mem_cons.mp hall
    have hsecond := head_of_name hrest hmore
    rw [List.cons_append] at hmarks hname ⊢
    unfold readToken
    rw [hmarks]
    dsimp only
    split
    · rename_i heq
      cases heq
    · rename_i heq
      exact absurd (List.cons.inj heq).1 (isNameContinue_ne hcont (by decide))
    · rename_i heq
      exact absurd (List.cons.inj heq).1 (isNameContinue_ne hcont (by decide))
    · rename_i heq
      rw [(List.cons.inj heq).2] at hsecond
      simp at hsecond
    · rename_i heq
      rw [(List.cons.inj heq).2] at hsecond
      simp at hsecond
    · rename_i heq
      obtain ⟨rfl, rfl⟩ := List.cons.inj heq
      rw [if_pos hstart, hname]

theorem readToken_raw {w more : List Char} (hw : IsPlain w) (hmore : separates more = true) :
    readToken ('r' :: '#' :: w ++ more) = some (.word, 'r' :: '#' :: w, more) := by
  obtain ⟨hstart, hall⟩ := hw
  have hname := readName_append hall hmore
  have hhead := head_of_name hall hmore
  have hraw : readRawStart 1 (w ++ more) = none :=
    readRawStart_eq_none fun c hc => ⟨(hhead c hc).1, (hhead c hc).2.2⟩
  have hmarks : quoteMarks.findSome? (fun m => readMarked ('r' :: '#' :: (w ++ more)) m.1 m.2) = none := by
    simp [quoteMarks, readMarked, readRawStart, hraw]
  rw [List.cons_append, List.cons_append]
  unfold readToken
  rw [hmarks]
  simp [hname, ahead]

end Words

/-- A text that is one token by itself and does not begin a gap. -/
theorem SpellsBefore.of_readToken {p : List Char → Prop} {s : String} {kind : TokenKind} {c : Char}
    (hhead : s.toList.head? = some c) (hc : isSpace c = false ∧ c ≠ '/')
    (hread : ∀ more, p more → readToken (s.toList ++ more) = some (kind, s.toList, more)) :
    SpellsBefore p s [⟨kind, s, false⟩] := by
  obtain ⟨rest, hs⟩ := List.head?_eq_some_iff.mp hhead
  refine ⟨by simp [hs], by simp, fun more hmore => ?_⟩
  have hgap : readGap .between (s.toList ++ more) = some ⟨[], false, s.toList ++ more⟩ := by
    rw [hs, List.cons_append, readGap_cons hc.2, hc.1]
    rfl
  have hne : s.toList ++ more ≠ [] := by simp [hs]
  have hreads := Reads.token hgap hne (hread more hmore) (.done more)
  refine ⟨_, [], fit_cons.mpr ⟨_, _, ⟨rfl, ?_, by simp⟩, fit_nil.mpr rfl, rfl⟩, isGap_nil, hreads⟩
  exact String.ofList_toList

/-- A name, perhaps with the mark in front that lets it be a keyword. -/
def IsWord (s : String) : Prop := IsPlain s.toList ∨ ∃ w, s.toList = 'r' :: '#' :: w ∧ IsPlain w

instance : DecidablePred IsWord := fun s =>
  decidable_of_iff (IsPlain s.toList ∨ s.toList.take 2 = ['r', '#'] ∧ IsPlain (s.toList.drop 2)) <| or_congr_right <| by
    constructor
    · rintro ⟨hmark, hplain⟩
      refine ⟨_, ?_, hplain⟩
      rw [← List.take_append_drop 2 s.toList, hmark]
      rfl
    · rintro ⟨w, hw, hplain⟩
      simp [hw, hplain]

theorem isPlain_head {w : List Char} (h : IsPlain w) : ∃ c, w.head? = some c ∧ isSpace c = false ∧ c ≠ '/' := by
  obtain ⟨⟨c, hc, _⟩, hall⟩ := h
  have hcont : Text.isNameContinue c = true := hall c (List.mem_of_mem_head? hc)
  exact ⟨c, hc, isSpace_of_isNameContinue hcont, isNameContinue_ne hcont (by decide)⟩

theorem spells_word {s : String} (h : IsWord s) : Spells s [.word s] := by
  rcases h with hplain | ⟨w, hs, hplain⟩
  · obtain ⟨c, hc, hstart⟩ := isPlain_head hplain
    exact .of_readToken hc hstart fun more hmore => readToken_plain hplain hmore
  · refine .of_readToken (c := 'r') (by simp [hs]) (by decide) fun more hmore => ?_
    rw [hs]
    exact readToken_raw hplain hmore

section Lifetimes

/-- A lifetime: a name behind a quote. -/
def IsLifetime (s : String) : Prop := ∃ w, s.toList = '\'' :: w ∧ IsPlain w

instance : DecidablePred IsLifetime := fun s =>
  decidable_of_iff (s.toList.take 1 = ['\''] ∧ IsPlain (s.toList.drop 1)) <| by
    constructor
    · rintro ⟨hmark, hplain⟩
      refine ⟨_, ?_, hplain⟩
      rw [← List.take_append_drop 1 s.toList, hmark]
      rfl
    · rintro ⟨w, hw, hplain⟩
      simp [hw, hplain]

private theorem readCharacter_eq_none {w more : List Char} (hw : IsPlain w) (hmore : separates more = true) :
    readCharacter (w ++ more) = none := by
  obtain ⟨⟨c, hc, _⟩, hall⟩ := hw
  cases w with
  | nil => simp at hc
  | cons d w =>
    obtain ⟨hd, hrest⟩ := List.forall_mem_cons.mp hall
    have hsecond := head_of_name hrest hmore
    rw [List.cons_append, readCharacter.eq_def]
    split
    · rename_i heq
      exact absurd (List.cons.inj heq).1 (isNameContinue_ne hd (by decide))
    · rename_i heq
      exact absurd (List.cons.inj heq).1 (isNameContinue_ne hd (by decide))
    · rename_i heq
      exact absurd (List.cons.inj heq).1 (isNameContinue_ne hd (by decide))
    · rename_i heq
      rw [(List.cons.inj heq).2] at hsecond
      simp at hsecond
    · rfl

theorem readToken_lifetime {w more : List Char} (hw : IsPlain w) (hmore : separates more = true) :
    readToken ('\'' :: w ++ more) = some (.lifetime, '\'' :: w, more) := by
  have hnone := readCharacter_eq_none hw hmore
  obtain ⟨⟨c, hc, hstart⟩, hall⟩ := hw
  have hname := readName_append hall hmore
  have hmarks : quoteMarks.findSome? (fun m => readMarked ('\'' :: (w ++ more)) m.1 m.2) = none := by
    simp [quoteMarks, readMarked]
  cases w with
  | nil => simp at hc
  | cons d w =>
    obtain rfl : d = c := by simpa using hc
    simp only [List.cons_append] at hnone hmarks hname ⊢
    unfold readToken
    rw [hmarks]
    simp [hnone, hstart, hname, ahead]

theorem spells_lifetime {s : String} (h : IsLifetime s) : Spells s [⟨.lifetime, s, false⟩] := by
  obtain ⟨w, hs, hw⟩ := h
  refine .of_readToken (c := '\'') (by simp [hs]) (by decide) fun more hmore => ?_
  rw [hs]
  exact readToken_lifetime hw hmore

end Lifetimes

section Numbers

private theorem readNumber_append {ds more : List Char} (hds : ∀ d ∈ ds, d.isDigit = true) (hmore : separates more = true) :
    readNumber (ds ++ more) = (ds, more) := by
  have hpart : ∀ d ∈ ds, (d.isAlphanum || d = '_') = true := fun d hd => by simp [Char.isAlphanum, hds d hd]
  have hend : ∀ c ∈ more.head?, (c.isAlphanum || c = '_') = false := by
    intro c hc
    have hname := (head_of_separates hmore c hc).1
    cases hcase : (c.isAlphanum || c = '_') with
    | false => rfl
    | true =>
      rcases Bool.or_eq_true _ _ |>.mp hcase with halpha | hunder
      · rw [isNameContinue_of_isAlphanum halpha] at hname
        cases hname
      · obtain rfl : c = '_' := by simpa using hunder
        exact absurd hname (by decide)
  unfold readNumber
  dsimp only
  rw [List.takeWhile_append_of_pos hpart, List.dropWhile_append_of_pos hpart]
  cases more with
  | nil => simp
  | cons c rest =>
    have hc := hend c rfl
    rw [List.takeWhile_cons_of_neg (by simp [hc]), List.dropWhile_cons_of_neg (by simp [hc]), List.append_nil]
    split
    · rename_i d after heq
      obtain ⟨rfl, rfl⟩ := List.cons.inj heq
      have hd : d.isDigit = false := by simpa [separates] using hmore
      simp [hd]
    · rfl

private theorem readToken_number {ds more : List Char} (hne : ds ≠ []) (hds : ∀ d ∈ ds, d.isDigit = true)
    (hmore : separates more = true) : readToken (ds ++ more) = some (.number, ds, more) := by
  have hall : ∀ d ∈ ds, Text.isNameContinue d = true := fun d hd =>
    isNameContinue_of_isAlphanum (by simp [Char.isAlphanum, hds d hd])
  have hmarks : quoteMarks.findSome? (fun m => readMarked (ds ++ more) m.1 m.2) = none := by
    exact List.findSome?_eq_none_iff.mpr fun m hm => readMarked_name hall hmore (isName_quoteMarks hm)
  have hnumber := readNumber_append hds hmore
  cases ds with
  | nil => exact absurd rfl hne
  | cons d ds =>
    have hd : d.isDigit = true := hds d (by simp)
    have hnot : ∀ e : Char, e.isDigit = false → d ≠ e := by
      rintro e he rfl
      rw [hd] at he
      cases he
    rw [List.cons_append] at hmarks hnumber ⊢
    unfold readToken
    rw [hmarks]
    dsimp only
    split
    · rename_i heq
      cases heq
    · rename_i heq
      exact absurd (List.cons.inj heq).1 (hnot _ (by decide))
    · rename_i heq
      exact absurd (List.cons.inj heq).1 (hnot _ (by decide))
    · rename_i heq
      exact absurd (List.cons.inj heq).1 (hnot _ (by decide))
    · rename_i heq
      exact absurd (List.cons.inj heq).1 (hnot _ (by decide))
    · rename_i heq
      obtain ⟨rfl, rfl⟩ := List.cons.inj heq
      rw [if_neg (by simp [isNameStart_of_isDigit hd]), if_pos hd, hnumber]

theorem toList_toString (n : Nat) : (toString n).toList = Nat.toDigits 10 n := Nat.toList_repr

theorem spells_number (n : Nat) : Spells (toString n) [⟨.number, toString n, false⟩] := by
  have hdigits : ∀ d ∈ (toString n).toList, d.isDigit = true := fun d hd => by
    rw [toList_toString] at hd
    exact Nat.isDigit_of_mem_toDigits (by decide) (by decide) hd
  have hne : (toString n).toList ≠ [] := by
    rw [toList_toString]
    exact List.ne_nil_of_length_pos Nat.length_toDigits_pos
  obtain ⟨c, hc⟩ := Option.isSome_iff_exists.mp (List.isSome_head?.mpr hne)
  have hcont : Text.isNameContinue c = true :=
    isNameContinue_of_isAlphanum (by simp [Char.isAlphanum, hdigits c (List.mem_of_mem_head? hc)])
  exact .of_readToken hc ⟨isSpace_of_isNameContinue hcont, isNameContinue_ne hcont (by decide)⟩
    fun more hmore => readToken_number hne hdigits hmore

end Numbers

section Strings

theorem readToken_string {cs : List Char} (more : List Char) (h : readString (cs ++ more) = some (cs, more)) :
    readToken ('"' :: cs ++ more) = some (.string, '"' :: cs, more) := by
  rw [List.cons_append]
  unfold readToken
  simp [quoteMarks, readMarked, h, ahead]

/-- Characters that the reading of a string passes over. -/
def Passes (cs : List Char) : Prop := ∀ rest, readString (cs ++ rest) = (readString rest).map (ahead cs)

theorem passes_nil : Passes [] := fun rest => by
  rw [List.nil_append]
  cases readString rest <;> rfl

theorem Passes.append {cs ds : List Char} (hcs : Passes cs) (hds : Passes ds) : Passes (cs ++ ds) := by
  intro rest
  rw [List.append_assoc, hcs, hds, Option.map_map]
  congr 1
  funext x
  simp [ahead]

theorem passes_plain {c : Char} (h : c ≠ '"' ∧ c ≠ '\\') : Passes [c] := by
  intro rest
  rw [List.singleton_append, readString.eq_def]
  split <;> simp_all

theorem passes_escape (c : Char) : Passes ['\\', c] := fun rest => by
  rw [List.cons_append, List.singleton_append, readString]

theorem passes_all {cs : List Char} (h : ∀ c ∈ cs, c ≠ '"' ∧ c ≠ '\\') : Passes cs := by
  induction cs with
  | nil => exact passes_nil
  | cons c cs ih =>
    obtain ⟨hc, hcs⟩ := List.forall_mem_cons.mp h
    exact (passes_plain hc).append (ih hcs)

/-- A text without quotes and backslashes, in quotes. -/
theorem closes_inQuotes {s : String} (h : ∀ c ∈ s.toList, c ≠ '"' ∧ c ≠ '\\') :
    Closes ("\"" ++ s ++ "\"") [⟨.string, "\"" ++ s ++ "\"", false⟩] := by
  have hs : ("\"" ++ s ++ "\"").toList = '"' :: (s.toList ++ ['"']) := by simp
  refine .of_readToken (c := '"') (by simp [hs]) (by decide) fun more _ => ?_
  rw [hs]
  refine readToken_string more ?_
  rw [List.append_assoc, passes_all h]
  rfl

private theorem hexDigits_ne (n : Nat) : ∀ c ∈ Text.hexDigits n, c ≠ '"' ∧ c ≠ '\\' := by
  induction n using Nat.strongRecOn with
  | ind n ih =>
    have hdigit : ∀ m < 16, m.digitChar ≠ '"' ∧ m.digitChar ≠ '\\' := by decide
    intro c hc
    rw [Text.hexDigits, Nat.toDigits_eq_if (by decide)] at hc
    split at hc
    · rename_i hless
      obtain rfl := List.mem_singleton.mp hc
      exact hdigit n hless
    · rename_i hnot
      rcases List.mem_append.mp hc with hc | hc
      · exact ih (n / 16) (Nat.div_lt_self (by omega) (by decide)) c hc
      · obtain rfl := List.mem_singleton.mp hc
        exact hdigit (n % 16) (Nat.mod_lt n (by decide))

private theorem passes_escapeChar (c : Char) : Passes (Text.escapeChar '"' c) := by
  have hnumeric : Passes (Text.numericEscape c) := by
    have hopen := (passes_escape 'u').append (passes_plain (c := '\x7b') (by decide))
    exact (hopen.append (passes_all (hexDigits_ne c.toNat))).append (passes_plain (by decide))
  unfold Text.escapeChar
  repeat' split
  all_goals first | exact passes_escape _ | exact hnumeric | skip
  rename_i hslash _
  exact passes_plain ⟨fun h => hslash (.inr h), fun h => hslash (.inl h)⟩

private theorem passes_escaped (cs : List Char) : Passes (cs.flatMap (Text.escapeChar '"')) := by
  induction cs with
  | nil => exact passes_nil
  | cons c cs ih => exact (passes_escapeChar c).append ih

theorem closes_quoted (s : String) : Closes (Text.quoted s) [⟨.string, Text.quoted s, false⟩] := by
  have hs : (Text.quoted s).toList = '"' :: (s.toList.flatMap (Text.escapeChar '"') ++ ['"']) := by
    simp [Text.quoted]
  refine .of_readToken (c := '"') (by simp [hs]) (by decide) fun more _ => ?_
  rw [hs]
  refine readToken_string more ?_
  rw [List.append_assoc, passes_escaped]
  rfl

end Strings

end TraitMock.Syntax
