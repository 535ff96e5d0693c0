import Mathlib.Data.List.Basic
import TraitMock.Proofs.Json.Texts

namespace TraitMock.Json.Parser

section Gaps

variable {c : Char} {gap rest : List Char}

theorem skipSpace_cons (h : isSpace c = false) (rest : List Char) : skipSpace (c :: rest) = c :: rest :=
  List.dropWhile_cons_of_neg (by simp [h])

theorem skipSpace_append (h : IsGap gap) (rest : List Char) : skipSpace (gap ++ rest) = skipSpace rest :=
  List.dropWhile_append_of_pos h

private theorem skipSpace_gap (h : IsGap gap) : skipSpace gap = [] := by
  rw [← List.append_nil gap, skipSpace_append h]
  rfl

theorem skipSpace_append_cons (hgap : IsGap gap) (hc : isSpace c = false) (rest : List Char) :
    skipSpace (gap ++ c :: rest) = c :: rest := by
  rw [skipSpace_append hgap, skipSpace_cons hc]

end Gaps

section Numbers

/-- What may follow a number: nothing that would belong to it. -/
def EndsNumber (rest : List Char) : Prop :=
  ∀ c ∈ rest.head?, c.isDigit = false ∧ c ≠ '.' ∧ c ≠ 'e' ∧ c ≠ 'E'

theorem endsNumber_nil : EndsNumber [] := by simp [EndsNumber]

theorem endsNumber_cons {c : Char} (h : c.isDigit = false ∧ c ≠ '.' ∧ c ≠ 'e' ∧ c ≠ 'E') (rest : List Char) :
    EndsNumber (c :: rest) := by
  rintro _ ⟨⟩
  exact h

theorem endsNumber_append {gap rest : List Char} (hgap : IsGap gap) (hrest : EndsNumber rest) :
    EndsNumber (gap ++ rest) := by
  cases gap with
  | nil => exact hrest
  | cons c gap =>
    have hc : c = ' ' ∨ c = '\n' ∨ c = '\t' ∨ c = '\r' := by
      simpa [isSpace, or_assoc] using hgap c List.mem_cons_self
    refine endsNumber_cons ?_ _
    rcases hc with rfl | rfl | rfl | rfl <;> decide

variable {ds rest : List Char}

/-- Digits are read up to the first character that is none. -/
theorem takeDigits_append (hds : IsDigits ds) (hrest : ∀ c ∈ rest.head?, c.isDigit = false) (s dropped : Nat) :
    takeDigits s dropped (ds ++ rest) =
      ((takeDigits s dropped ds).1, (takeDigits s dropped ds).2.1, rest) := by
  induction ds generalizing s dropped with
  | nil =>
    cases rest with
    | nil => rfl
    | cons c rest => simp [takeDigits, hrest c rfl]
  | cons d ds ih =>
    have hd := hds d List.mem_cons_self
    have htail := ih fun c hc => hds c (List.mem_cons_of_mem d hc)
    simp only [List.cons_append, takeDigits, hd, if_true, htail]
    split <;> rfl

theorem takeWhile_digits (hds : IsDigits ds) (hrest : ∀ c ∈ rest.head?, c.isDigit = false) :
    (ds ++ rest).takeWhile Char.isDigit = ds ∧ (ds ++ rest).dropWhile Char.isDigit = rest := by
  rw [List.takeWhile_append_of_pos hds, List.dropWhile_append_of_pos hds]
  cases rest with
  | nil => simp
  | cons c rest => simp [hrest c rfl]

/-- The exponent that some digits behind a sign stand for. -/
def signedPower (below : Bool) (exponent : Int) (digits : List Char) : Int :=
  let power : Int := digits.foldl (fun n d => 10 * n + (d.toNat - 48)) 0
  if below then exponent - power else exponent + power

private theorem digit_ne_sign {d : Char} (h : d.isDigit = true) : d ≠ '+' ∧ d ≠ '-' := by
  constructor <;> rintro rfl <;> exact absurd h (by decide)

private theorem exponentPart_eq {d : Char} {sign : List Char} (hsign : sign = [] ∨ sign = ['+'] ∨ sign = ['-'])
    (hds : IsDigits (d :: ds)) (hrest : ∀ c ∈ rest.head?, c.isDigit = false) (negative : Bool) (s : Nat) (e : Int) :
    exponentPart negative s e (sign ++ (d :: ds ++ rest)) =
      ⟨.number (floatOf negative s (signedPower (sign = ['-']) e (d :: ds))), some rest⟩ := by
  obtain ⟨htake, hdrop⟩ := takeWhile_digits hds hrest
  have hd := hds d List.mem_cons_self
  rw [List.cons_append] at htake hdrop
  obtain ⟨hplus, hminus⟩ := digit_ne_sign hd
  rcases hsign with rfl | rfl | rfl
  all_goals simp [exponentPart, hd, htake, hdrop, signedPower, hplus, hminus]

private theorem EndsNumber.not_digit (h : EndsNumber rest) : ∀ c ∈ rest.head?, c.isDigit = false :=
  fun c hc => (h c hc).1

/-- An exponent begins with no digit and no point. -/
theorem head_exponent {exponent : List Char} (h : ExponentText exponent) (hrest : EndsNumber rest) :
    ∀ c ∈ (exponent ++ rest).head?, c.isDigit = false ∧ c ≠ '.' := by
  cases h with
  | absent => exact fun c hc => ⟨(hrest c hc).1, (hrest c hc).2.1⟩
  | digits hmark =>
    rintro _ ⟨⟩
    rcases hmark with rfl | rfl <;> decide

/-- What follows a fraction, or the whole part of a number without one. -/
def behindFraction (negative : Bool) (s : Nat) (e : Int) (plain : Except Fault Number) (cs : List Char) : Parsed Json :=
  match cs with
  | 'e' :: more => exponentPart negative s e more
  | 'E' :: more => exponentPart negative s e more
  | _ => ⟨.number plain, some cs⟩

theorem behindFraction_of_ne {cs : List Char} (hlower : ∀ rest, cs ≠ 'e' :: rest) (hupper : ∀ rest, cs ≠ 'E' :: rest)
    (negative : Bool) (s : Nat) (e : Int) (plain : Except Fault Number) :
    behindFraction negative s e plain cs = ⟨.number plain, some cs⟩ := by
  unfold behindFraction
  split
  · exact absurd rfl (hlower _)
  · exact absurd rfl (hupper _)
  · rfl

theorem behindFraction_append {exponent : List Char} (h : ExponentText exponent) (negative : Bool) (s : Nat) (e : Int)
    (plain : Except Fault Number) :
    ∃ n, ∀ rest, EndsNumber rest → behindFraction negative s e plain (exponent ++ rest) = ⟨.number n, some rest⟩ := by
  cases h with
  | absent =>
    refine ⟨plain, fun rest hrest => ?_⟩
    rw [List.nil_append]
    refine behindFraction_of_ne ?_ ?_ negative s e plain
    · rintro more rfl
      exact absurd rfl (hrest 'e' rfl).2.2.1
    · rintro more rfl
      exact absurd rfl (hrest 'E' rfl).2.2.2
  | @digits mark d sign ds hmark hsign hds =>
    refine ⟨floatOf negative s (signedPower (sign = ['-']) e (d :: ds)), fun rest hrest => ?_⟩
    have hread := exponentPart_eq hsign hds hrest.not_digit negative s e
    rw [List.cons_append, List.append_assoc]
    rcases hmark with rfl | rfl <;> exact hread

private theorem fractionPart_of_ne {cs : List Char} (h : ∀ c ∈ cs.head?, c ≠ '.') (negative : Bool) (s dropped : Nat) :
    fractionPart negative s dropped cs = behindFraction negative s dropped
      (if 0 < dropped then floatOf negative s dropped else .ok (integerOf negative s)) cs := by
  unfold fractionPart
  split
  · exact absurd rfl (h '.' rfl)
  · rfl
  · rfl
  · rename_i hlower hupper
    rw [behindFraction_of_ne (fun rest heq => hlower rest heq) fun rest heq => hupper rest heq]
    split <;> rfl

/-- A number behind its whole part, with a fraction and an exponent or without. -/
theorem fractionPart_append {fraction exponent : List Char} (hfraction : FractionText fraction)
    (hexponent : ExponentText exponent) (negative : Bool) (s dropped : Nat) :
    ∃ n, ∀ rest, EndsNumber rest →
      fractionPart negative s dropped (fraction ++ (exponent ++ rest)) = ⟨.number n, some rest⟩ := by
  cases hfraction with
  | absent =>
    obtain ⟨n, hn⟩ := behindFraction_append hexponent negative s dropped
      (if 0 < dropped then floatOf negative s dropped else .ok (integerOf negative s))
    refine ⟨n, fun rest hrest => ?_⟩
    rw [← hn rest hrest, List.nil_append]
    exact fractionPart_of_ne (fun c hc => (head_exponent hexponent hrest c hc).2) negative s dropped
  | @digits d ds hds =>
    let read := if 0 < dropped then (s, (d :: ds).length, []) else takeDigits s 0 (d :: ds)
    let e : Int := (dropped : Int) - (((d :: ds).length : Int) - read.2.1)
    obtain ⟨n, hn⟩ := behindFraction_append hexponent negative read.1 e (floatOf negative read.1 e)
    refine ⟨n, fun rest hrest => ?_⟩
    have hd := hds d List.mem_cons_self
    obtain ⟨htake, hdrop⟩ := takeWhile_digits hds fun c hc => (head_exponent hexponent hrest c hc).1
    rw [List.cons_append] at htake hdrop
    rw [← hn rest hrest, List.cons_append, List.cons_append]
    simp only [fractionPart, hd, htake, hdrop, Bool.not_true, Bool.false_eq_true, if_false]
    rfl

/-- No digit stands behind the whole part of a number. -/
theorem head_fraction {fraction exponent : List Char} (hfraction : FractionText fraction)
    (hexponent : ExponentText exponent) (hrest : EndsNumber rest) :
    ∀ c ∈ (fraction ++ (exponent ++ rest)).head?, c.isDigit = false := by
  cases hfraction with
  | absent => exact fun c hc => (head_exponent hexponent hrest c hc).1
  | digits =>
    rintro _ ⟨⟩
    decide

private theorem number_append {digits : List Char} (h : NumberText digits) (negative : Bool) :
    ∃ n, ∀ rest, EndsNumber rest → number negative (digits ++ rest) = ⟨.number n, some rest⟩ := by
  cases h with
  | @mk whole fraction exponent hwhole hfraction hexponent =>
  cases hwhole with
  | zero =>
    obtain ⟨n, hn⟩ := fractionPart_append hfraction hexponent negative 0 0
    refine ⟨n, fun rest hrest => ?_⟩
    have hhead := head_fraction hfraction hexponent hrest
    rw [← hn rest hrest, List.append_assoc, List.append_assoc, List.singleton_append]
    cases hbehind : fraction ++ (exponent ++ rest) with
    | nil => rfl
    | cons c cs => simp [number, hhead c (by rw [hbehind]; rfl)]
  | @digits d ds hzero hds =>
    obtain ⟨n, hn⟩ := fractionPart_append hfraction hexponent negative (takeDigits 0 0 (d :: ds)).1
      (takeDigits 0 0 (d :: ds)).2.1
    refine ⟨n, fun rest hrest => ?_⟩
    have htake := takeDigits_append hds (head_fraction hfraction hexponent hrest) 0 0
    have hd := hds d List.mem_cons_self
    rw [← hn rest hrest, List.append_assoc, List.append_assoc]
    rw [List.cons_append] at htake ⊢
    simp [number, hd, htake]

/-- The digits of a number are read as far as they reach. -/
theorem number_numberOf {digits : List Char} (h : NumberText digits) (negative : Bool) (hrest : EndsNumber rest) :
    number negative (digits ++ rest) = ⟨.number (numberOf negative digits), some rest⟩ := by
  obtain ⟨n, hn⟩ := number_append h negative
  have halone := hn [] endsNumber_nil
  rw [List.append_nil] at halone
  rw [numberOf, halone, hn rest hrest]

theorem head_of_numberText {digits : List Char} (h : NumberText digits) :
    ∃ d ds, digits = d :: ds ∧ d.isDigit = true := by
  obtain ⟨hwhole, -, -⟩ := h
  cases hwhole with
  | zero => exact ⟨_, _, rfl, by decide⟩
  | digits _ hds => exact ⟨_, _, rfl, hds _ List.mem_cons_self⟩

/-- A digit is no blank and no bracket. -/
theorem isSpace_of_isDigit {c : Char} (h : c.isDigit = true) : isSpace c = false ∧ c ≠ ']' := by
  constructor
  · rw [Bool.eq_false_iff]
    intro hspace
    have hblank : c = ' ' ∨ c = '\n' ∨ c = '\t' ∨ c = '\r' := by simpa [isSpace, or_assoc] using hspace
    rcases hblank with rfl | rfl | rfl | rfl <;> exact absurd h (by decide)
  · rintro rfl
    exact absurd h (by decide)

end Numbers

section Strings

variable {c : Char} {acc cs written rest : List Char} {fuel : Nat}

theorem hex_append {n : Nat} {digits : List Char} (h : HexText n digits) (rest : List Char) :
    hex 0 4 (digits ++ rest) = .ok (n, rest) := by
  obtain ⟨ha, hb, hc, hd⟩ := h
  simp [hex, ha, hb, hc, hd]

theorem HexText.length_eq {n : Nat} {digits : List Char} (h : HexText n digits) : digits.length = 4 := by
  obtain ⟨ha, hb, hc, hd⟩ := h
  rfl

/-- No character has the number of a surrogate. -/
theorem not_surrogate (c : Char) : c.toNat < 0xD800 ∨ 0xDFFF < c.toNat := by
  rcases c.valid with h | h
  · exact .inl h
  · exact .inr h.1

/-- A character is read as it is written. -/
theorem stringRest_charText (h : CharText c written) (hfuel : 0 < fuel) :
    stringRest acc none fuel (written ++ rest) = stringRest (c :: acc) none (fuel - 1) rest := by
  obtain ⟨fuel, rfl⟩ := Nat.exists_eq_succ_of_ne_zero (Nat.pos_iff_ne_zero.mp hfuel)
  cases h with
  | plain hcontrol hquote hslash => simp [stringRest, Nat.not_lt.mpr hcontrol]
  | @short letter h =>
    -- the letter of an escape by number is none of a short one
    have hu : letter ≠ 'u' := by
      rintro rfl
      cases h
    simp [stringRest, h]
  | number h =>
    have hread := hex_append h rest
    simp [stringRest, hread, not_surrogate]
  | @pair n m high low hhigh hlow hn hm hc =>
    have hfirst := hex_append hhigh ('\\' :: 'u' :: (low ++ rest))
    have hsecond := hex_append hlow rest
    have hchar : Char.ofNat ((n - 0xD800) * 1024 + (m - 0xDC00) + 0x10000) = c := by rw [← hc, Char.ofNat_toNat]
    have hsurrogate : ¬(n < 0xD800 ∨ 0xDFFF < n) := by omega
    have hlead : ¬0xDC00 ≤ n := by omega
    simp [stringRest, hfirst, hsecond, hsurrogate, hlead, hm, hchar]

private theorem stringRest_stringText (h : StringText cs written) (hfuel : written.length < fuel) :
    stringRest acc none fuel (written ++ '"' :: rest) = .ok (⟨String.ofList (acc.reverse ++ cs), none⟩, rest) := by
  induction h generalizing acc fuel with
  | nil =>
    obtain ⟨fuel, rfl⟩ := Nat.exists_eq_succ_of_ne_zero (Nat.ne_zero_of_lt hfuel)
    simp [stringRest]
  | @cons c cs text more hc _ ih =>
    have htext : 0 < text.length := by
      cases hc <;> simp
    rw [List.length_append] at hfuel
    rw [List.append_assoc, stringRest_charText hc (by omega), ih (by omega), List.reverse_cons, List.append_assoc,
      List.singleton_append]

/-- A string is read up to its closing quotation mark. -/
theorem stringBody_append {s : String} (h : StringText s.toList written) (rest : List Char) :
    stringBody (written ++ '"' :: rest) = .ok (⟨s, none⟩, rest) := by
  have hfuel : written.length < (written ++ '"' :: rest).length + 1 := by
    rw [List.length_append]
    omega
  rw [stringBody, stringRest_stringText h hfuel, List.reverse_nil, List.nil_append, String.ofList_toList]

end Strings

section Values

variable {c : Char} {cs rest : List Char} {fuel : Nat}

/-- A value begins with a character of its own. -/
theorem head_of_spells {j : Json} (h : Spells j cs) : ∃ c rest, cs = c :: rest ∧ isSpace c = false ∧ c ≠ ']' := by
  cases h with
  | positive h =>
    obtain ⟨d, ds, rfl, hd⟩ := head_of_numberText h
    exact ⟨d, ds, rfl, isSpace_of_isDigit hd⟩
  | _ => exact ⟨_, _, rfl, by decide, by decide⟩

private theorem value_digit {d : Char} (hd : d.isDigit = true) (fuel : Nat) (ds : List Char) :
    value (fuel + 1) (d :: ds) = number false (d :: ds) := by
  have hne : ∀ c : Char, c.isDigit = false → d ≠ c := by
    rintro c hc rfl
    rw [hd] at hc
    cases hc
  rw [value, skipSpace_cons (isSpace_of_isDigit hd).1]
  simp [hd, hne 'n' (by decide), hne 't' (by decide), hne 'f' (by decide), hne '-' (by decide), hne '"' (by decide),
    hne '[' (by decide), hne '\x7b' (by decide)]

theorem value_append_gap {gap : List Char} (hgap : IsGap gap) (fuel : Nat) (cs : List Char) :
    value fuel (gap ++ cs) = value fuel cs := by
  cases fuel with
  | zero => rfl
  | succ fuel => rw [value, value, skipSpace_append hgap]

theorem items_append_gap {gap : List Char} (hgap : IsGap gap) (first : Bool) (fuel : Nat) (cs : List Char) :
    items first fuel (gap ++ cs) = items first fuel cs := by
  cases fuel with
  | zero => rfl
  | succ fuel => rw [items, items, skipSpace_append hgap]

theorem entries_append_gap {gap : List Char} (hgap : IsGap gap) (first : Bool) (fuel : Nat) (cs : List Char) :
    entries first fuel (gap ++ cs) = entries first fuel cs := by
  cases fuel with
  | zero => rfl
  | succ fuel => rw [entries, entries, skipSpace_append hgap]

theorem items_close (first : Bool) (fuel : Nat) (rest : List Char) :
    items first (fuel + 1) (']' :: rest) = ⟨([], none), some rest⟩ := by
  simp [items, skipSpace_cons (show isSpace ']' = false by decide)]

theorem entries_close (first : Bool) (fuel : Nat) (rest : List Char) :
    entries first (fuel + 1) ('\x7d' :: rest) = ⟨([], none), some rest⟩ := by
  simp [entries, skipSpace_cons (show isSpace '\x7d' = false by decide)]

/-- Puts an item in front of those that follow it. -/
def withItem (j : Json) (more : Parsed (List Json × Option Break)) : Parsed (List Json × Option Break) :=
  ⟨(j :: more.value.1, more.value.2), more.rest?⟩

variable {before written tail : List Char} {j : Json}

theorem items_first (hbefore : IsGap before) (h : Spells j written)
    (hread : value fuel (written ++ tail) = ⟨j, some rest⟩) :
    items true (fuel + 1) (before ++ (written ++ tail)) = withItem j (items false fuel rest) := by
  obtain ⟨c, cs, rfl, hc, hclose⟩ := head_of_spells h
  rw [items, List.cons_append, skipSpace_append_cons hbefore hc]
  rw [List.cons_append] at hread
  simp [hread, withItem]

theorem items_more (hbefore : IsGap before) (h : Spells j written)
    (hread : value fuel (written ++ tail) = ⟨j, some rest⟩) :
    items false (fuel + 1) (',' :: (before ++ (written ++ tail))) = withItem j (items false fuel rest) := by
  obtain ⟨c, cs, rfl, hc, hclose⟩ := head_of_spells h
  rw [List.cons_append] at hread ⊢
  rw [items, skipSpace_cons (by decide)]
  simp [skipSpace_append_cons hbefore hc, hclose, hread, withItem]

/-- Puts an entry in front of those that follow it. -/
def withEntry (key : Text) (j : Json) (more : Parsed (List (Text × Json) × Option Break)) :
    Parsed (List (Text × Json) × Option Break) :=
  ⟨((key, j) :: more.value.1, more.value.2), more.rest?⟩

variable {key : String} {name mid : List Char}

theorem entries_first (hbefore : IsGap before) (hkey : StringText key.toList name) (hmid : IsGap mid)
    (hread : value fuel tail = ⟨j, some rest⟩) :
    entries true (fuel + 1) (before ++ '"' :: (name ++ '"' :: (mid ++ ':' :: tail))) =
      withEntry ⟨key, none⟩ j (entries false fuel rest) := by
  have hname := stringBody_append hkey (mid ++ ':' :: tail)
  have hcolon : skipSpace (mid ++ ':' :: tail) = ':' :: tail := skipSpace_append_cons hmid (by decide) tail
  rw [entries, skipSpace_append_cons hbefore (by decide)]
  simp [hname, hcolon, hread, withEntry]

theorem entries_more (hbefore : IsGap before) (hkey : StringText key.toList name) (hmid : IsGap mid)
    (hread : value fuel tail = ⟨j, some rest⟩) :
    entries false (fuel + 1) (',' :: (before ++ '"' :: (name ++ '"' :: (mid ++ ':' :: tail)))) =
      withEntry ⟨key, none⟩ j (entries false fuel rest) := by
  have hname := stringBody_append hkey (mid ++ ':' :: tail)
  have hcolon : skipSpace (mid ++ ':' :: tail) = ':' :: tail := skipSpace_append_cons hmid (by decide) tail
  have hquote := skipSpace_append_cons hbefore (show isSpace '"' = false by decide)
    (name ++ '"' :: (mid ++ ':' :: tail))
  rw [entries, skipSpace_cons (by decide)]
  simp [hquote, hname, hcolon, hread, withEntry]

end Values

section Reading

/-- What a parser reads from a written value, and what it leaves. -/
def ReadsValues (fuel : Nat) : Prop :=
  ∀ {j : Json} {written rest : List Char}, Spells j written → 2 * written.length ≤ fuel → EndsNumber rest →
    value fuel (written ++ rest) = ⟨j, some rest⟩

/-- What a parser reads from written items, at the beginning of an array and behind a comma. -/
def ReadsItems (fuel : Nat) : Prop :=
  ∀ {js : List Json} {written rest : List Char}, SpellsItems js written → 2 * written.length + 2 ≤ fuel →
    items true fuel (written ++ ']' :: rest) = ⟨(js, none), some rest⟩ ∧
    items false fuel (',' :: (written ++ ']' :: rest)) = ⟨(js, none), some rest⟩

/-- What a parser reads from written entries, at the beginning of an object and behind a comma. -/
def ReadsEntries (fuel : Nat) : Prop :=
  ∀ {es : List (Text × Json)} {written rest : List Char}, SpellsEntries es written → 2 * written.length + 2 ≤ fuel →
    entries true fuel (written ++ '\x7d' :: rest) = ⟨(es, none), some rest⟩ ∧
    entries false fuel (',' :: (written ++ '\x7d' :: rest)) = ⟨(es, none), some rest⟩

variable {fuel : Nat}

private theorem readsItems_succ (hvalues : ReadsValues fuel) (hitems : ReadsItems fuel) : ReadsItems (fuel + 1) := by
  intro js written rest h hfuel
  cases h with
  | @last j before written behind hbefore h hbehind =>
    simp only [List.length_append] at hfuel
    have hends : EndsNumber (behind ++ ']' :: rest) := endsNumber_append hbehind (endsNumber_cons (by decide) rest)
    have hread := hvalues h (by omega) hends
    obtain ⟨fuel, rfl⟩ := Nat.exists_eq_succ_of_ne_zero (show fuel ≠ 0 by omega)
    have hclose : withItem j (items false (fuel + 1) (behind ++ ']' :: rest)) = ⟨([j], none), some rest⟩ := by
      rw [items_append_gap hbehind, items_close]
      rfl
    rw [List.append_assoc, List.append_assoc]
    exact ⟨(items_first hbefore h hread).trans hclose, (items_more hbefore h hread).trans hclose⟩
  | @more j js before written behind others hbefore h hbehind hrest =>
    simp only [List.length_append, List.length_cons] at hfuel
    have hends : EndsNumber (behind ++ ',' :: (others ++ ']' :: rest)) :=
      endsNumber_append hbehind (endsNumber_cons (by decide) _)
    have hread := hvalues h (by omega) hends
    have hothers : withItem j (items false fuel (behind ++ ',' :: (others ++ ']' :: rest))) =
        ⟨(j :: js, none), some rest⟩ := by
      rw [items_append_gap hbehind, (hitems hrest (by omega)).2]
      rfl
    rw [List.append_assoc, List.append_assoc, List.append_assoc, List.cons_append]
    exact ⟨(items_first hbefore h hread).trans hothers, (items_more hbefore h hread).trans hothers⟩

private theorem readsEntries_succ (hvalues : ReadsValues fuel) (hentries : ReadsEntries fuel) : ReadsEntries (fuel + 1) := by
  intro es written rest h hfuel
  cases h with
  | @last key j before name mid front written behind hbefore hkey hmid hfront h hbehind =>
    simp only [List.length_append, List.length_cons] at hfuel
    have hends : EndsNumber (behind ++ '\x7d' :: rest) := endsNumber_append hbehind (endsNumber_cons (by decide) rest)
    have hread := hvalues h (by omega) hends
    rw [← value_append_gap hfront] at hread
    obtain ⟨fuel, rfl⟩ := Nat.exists_eq_succ_of_ne_zero (show fuel ≠ 0 by omega)
    have hclose : withEntry ⟨key, none⟩ j (entries false (fuel + 1) (behind ++ '\x7d' :: rest)) =
        ⟨([(⟨key, none⟩, j)], none), some rest⟩ := by
      rw [entries_append_gap hbehind, entries_close]
      rfl
    simp only [List.append_assoc, List.cons_append]
    exact ⟨(entries_first hbefore hkey hmid hread).trans hclose, (entries_more hbefore hkey hmid hread).trans hclose⟩
  | @more key j es before name mid front written behind others hbefore hkey hmid hfront h hbehind hrest =>
    simp only [List.length_append, List.length_cons] at hfuel
    have hends : EndsNumber (behind ++ ',' :: (others ++ '\x7d' :: rest)) :=
      endsNumber_append hbehind (endsNumber_cons (by decide) _)
    have hread := hvalues h (by omega) hends
    rw [← value_append_gap hfront] at hread
    have hothers : withEntry ⟨key, none⟩ j (entries false fuel (behind ++ ',' :: (others ++ '\x7d' :: rest))) =
        ⟨((⟨key, none⟩, j) :: es, none), some rest⟩ := by
      rw [entries_append_gap hbehind, (hentries hrest (by omega)).2]
      rfl
    simp only [List.append_assoc, List.cons_append]
    exact ⟨(entries_first hbefore hkey hmid hread).trans hothers,
      (entries_more hbefore hkey hmid hread).trans hothers⟩

private theorem readsValues_succ (hitems : ReadsItems fuel) (hentries : ReadsEntries fuel) : ReadsValues (fuel + 1) := by
  intro j written rest h hfuel hrest
  cases h with
  | null | true | false => simp [value, skipSpace, isSpace, word]
  | @positive digits h =>
    have hread := number_numberOf h false hrest
    obtain ⟨d, ds, rfl, hd⟩ := head_of_numberText h
    rw [List.cons_append] at hread ⊢
    rw [value_digit hd, hread]
  | @negative digits h =>
    rw [List.cons_append, value, skipSpace_cons (by decide)]
    exact number_numberOf h true hrest
  | @string s written h =>
    rw [List.cons_append, value, skipSpace_cons (by decide), List.append_assoc, List.singleton_append]
    simp [stringBody_append h rest]
  | @emptyArray gap hgap =>
    simp only [List.length_append, List.length_cons] at hfuel
    obtain ⟨fuel, rfl⟩ := Nat.exists_eq_succ_of_ne_zero (show fuel ≠ 0 by omega)
    rw [List.cons_append, value, skipSpace_cons (by decide), List.append_assoc, List.singleton_append]
    simp [items_append_gap hgap, items_close]
  | @array js written h =>
    simp only [List.length_append, List.length_cons, List.length_nil] at hfuel
    obtain ⟨hread, -⟩ := @hitems js written rest h (by omega)
    rw [List.cons_append, value, skipSpace_cons (by decide), List.append_assoc, List.singleton_append]
    simp [hread]
  | @emptyObject gap hgap =>
    simp only [List.length_append, List.length_cons] at hfuel
    obtain ⟨fuel, rfl⟩ := Nat.exists_eq_succ_of_ne_zero (show fuel ≠ 0 by omega)
    rw [List.cons_append, value, skipSpace_cons (by decide), List.append_assoc, List.singleton_append]
    simp [entries_append_gap hgap, entries_close]
  | @object es written h =>
    simp only [List.length_append, List.length_cons, List.length_nil] at hfuel
    obtain ⟨hread, -⟩ := @hentries es written rest h (by omega)
    rw [List.cons_append, value, skipSpace_cons (by decide), List.append_assoc, List.singleton_append]
    simp [hread]

/-- Written values, items and entries are read with fuel for twice their characters. -/
theorem reads (fuel : Nat) : ReadsValues fuel ∧ ReadsItems fuel ∧ ReadsEntries fuel := by
  induction fuel with
  | zero =>
    refine ⟨?_, ?_, ?_⟩
    · intro j written rest h hfuel
      obtain ⟨c, cs, rfl, -⟩ := head_of_spells h
      simp at hfuel
    · intro js written rest h hfuel
      omega
    · intro es written rest h hfuel
      omega
  | succ fuel ih =>
    obtain ⟨hvalues, hitems, hentries⟩ := ih
    exact ⟨readsValues_succ hitems hentries, readsItems_succ hvalues hitems, readsEntries_succ hvalues hentries⟩

end Reading

end TraitMock.Json.Parser

namespace TraitMock.Json

/-- A text is read as the value that it stands for, and nothing is left of it. -/
theorem IsTextOf.parse_eq {text : String} {j : Json} (h : IsTextOf text j) : parse text = ⟨j, none⟩ := by
  obtain ⟨before, written, behind, hbefore, hspells, hbehind, htext⟩ := h
  have hfuel : 2 * written.length ≤ 2 * text.toList.length + 1 := by
    rw [htext, List.length_append, List.length_append]
    omega
  have hends : Parser.EndsNumber behind := by
    rw [← List.append_nil behind]
    exact Parser.endsNumber_append hbehind Parser.endsNumber_nil
  have hread := (Parser.reads (2 * text.toList.length + 1)).1 hspells hfuel hends
  rw [← Parser.value_append_gap hbefore, ← htext] at hread
  simp [parse, hread, Parser.skipSpace_gap hbehind]

mutual

/-- Nothing is wrong with a written value when it is passed over. -/
theorem Spells.skipFault?_eq {j : Json} {written : List Char} : Spells j written → j.skipFault? = none
  | .null | .true | .false | .positive _ | .negative _ | .string _ => rfl
  | .emptyArray _ | .emptyObject _ => rfl
  | .array h => by rw [skipFault?, h.skipFaultAll?_eq]; rfl
  | .object h => by rw [skipFault?, h.skipFaultEntries?_eq]; rfl

theorem SpellsItems.skipFaultAll?_eq {js : List Json} {written : List Char} :
    SpellsItems js written → skipFaultAll? js = none
  | .last _ h _ => by rw [skipFaultAll?, h.skipFault?_eq]; rfl
  | .more _ h _ hrest => by rw [skipFaultAll?, h.skipFault?_eq, hrest.skipFaultAll?_eq]; rfl

theorem SpellsEntries.skipFaultEntries?_eq {es : List (Text × Json)} {written : List Char} :
    SpellsEntries es written → skipFaultEntries? es = none
  | .last _ _ _ _ h _ => by rw [skipFaultEntries?, h.skipFault?_eq]; rfl
  | .more _ _ _ _ h _ hrest => by rw [skipFaultEntries?, h.skipFault?_eq, hrest.skipFaultEntries?_eq]; rfl

end

end TraitMock.Json
