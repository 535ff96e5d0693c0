import TraitMock.Value.ArgumentType

namespace TraitMock

/-- The ways in which a test can write an argument that it expects. -/
inductive Expects : (t : ArgumentType) → t.Content → Value → Prop where
  | wrapped (t : ArgumentType) (c : t.Content) : Expects t c (.wrap t c)
  | compared (t : ArgumentType) (c : t.Content) (hequal : t.equal?.isSome) : Expects t c (.comparable t c)
  /-- Also the conversion of the arguments of a helper. -/
  | converted (t : ArgumentType) (c : t.Content) : Expects t c (.new t c)
  /-- A text is also expected by a text of the program. -/
  | literal {s : String} {e : Value} (h : Expects .fixedText s e) : Expects (.data .text) (.text s) e

/-- The ways in which a method records an argument. -/
inductive Records : (t : ArgumentType) → t.Content → Value → Prop where
  | owned (t : ArgumentType) (c : t.Content) : Records t c (.capture t c)
  /-- By the owned form of what was borrowed under the given name. -/
  | borrowed (name : String) (t : DataType) (p : Payload) :
    Records (.data t) p (.data (.captureBorrowed name t p))
  /-- A text of the program is borrowed as any text is. -/
  | borrowedText {s : String} {r : Value} (h : Records (.data .text) (.text s) r) : Records .fixedText s r

namespace Datum

variable {t : DataType} {p q : Payload} {k l : Recording}

/-- One side that was recorded with the equality of its type is enough. -/
theorem deepEqual_of_comparable {eq : Payload → Payload → Bool} (hequal : t.equal? = some eq)
    (hk : k ≠ .shared) (hl : l ≠ .shared) (hone : k = .comparable ∨ l = .comparable) :
    deepEqual ⟨t, p, k⟩ ⟨t, q, l⟩ = eq p q := by
  have hunshared : ¬(k = .shared ∨ l = .shared) := not_or.mpr ⟨hk, hl⟩
  simp [deepEqual, typeEqual, hequal, hunshared, hone]

theorem deepEqual_of_plain :
    deepEqual ⟨t, p, .plain⟩ ⟨t, q, .plain⟩ = ((t.written p).spread == (t.written q).spread) := by
  simp [deepEqual, written]

private theorem comparable_of_isSome (hequal : t.equal?.isSome) : comparable t p = ⟨t, p, .comparable⟩ := by
  simp [comparable, hequal]

theorem comparable_of_none (hequal : t.equal? = none) : comparable t p = plain t p := by
  simp [comparable, plain, hequal]

end Datum

namespace Value

variable {t : DataType} {p : Payload} {s : String}

/-- Wrapping keeps all that the type offers. -/
theorem wrap_data : wrap (.data t) p = .data (.comparable t p) := by
  cases hequal : t.equal? with
  | none => simp [wrap, ArgumentType.equal?, new, hequal, Datum.comparable_of_none]
  | some eq => simp [wrap, ArgumentType.equal?, comparable, hequal]

private theorem capture_data (hcopy : t.cloneable) (hshow : t.printable) :
    capture (.data t) p = .data (.comparable t p) := by
  simp [capture, ArgumentType.cloneable, ArgumentType.printable, hcopy, hshow, wrap_data]

end Value

section Forms

variable {t : DataType} {p : Payload} {s : String} {e r : Value}

/-- A text of the program is expected as a text of its own, however it is written. -/
theorem Expects.of_fixedText (h : Expects .fixedText s e) : e = .text s := by
  cases h <;> rfl

/-- Data is expected as data of its type, never by its address. -/
theorem Expects.of_data (h : Expects (.data t) p e) : ∃ k, k ≠ .shared ∧ e = .data ⟨t, p, k⟩ := by
  cases h with
  | wrapped =>
    rw [Value.wrap_data]
    exact ⟨_, by split <;> simp, rfl⟩
  | compared => exact ⟨_, by split <;> simp, rfl⟩
  | converted => exact ⟨.plain, by simp, rfl⟩
  | literal h => exact ⟨.comparable, by simp, h.of_fixedText⟩

/-- Nothing but its text is left of data without an equality. -/
theorem Expects.of_incomparable (hequal : t.equal? = none) (h : Expects (.data t) p e) :
    e = .data (.plain t p) := by
  cases h with
  | wrapped => rw [Value.wrap_data, Datum.comparable_of_none hequal]
  | compared _ _ hsome => simp [ArgumentType.equal?, hequal] at hsome
  | converted => rfl
  | literal => simp [DataType.text] at hequal

theorem Records.of_data (hcopy : t.cloneable) (hshow : t.printable) (h : Records (.data t) p r) :
    r = .data (.comparable t p) := by
  cases h with
  | owned => exact Value.capture_data hcopy hshow
  | borrowed name => simp [Datum.captureBorrowed, hcopy, hshow]

theorem Records.of_fixedText (h : Records .fixedText s r) : r = .text s := by
  cases h with
  | owned => rfl
  | borrowedText h => exact h.of_data rfl rfl

end Forms

section Sides

variable {t : DataType} {a b : Payload} {e r : Value}

/-- The equality of a type of data decides in both orders. -/
theorem deepEqual_of_equal {eq : Payload → Payload → Bool} (hequal : t.equal? = some eq)
    (hcopy : t.cloneable) (hshow : t.printable) (hexpects : Expects (.data t) a e)
    (hrecords : Records (.data t) b r) : e.deepEqual r = eq a b ∧ r.deepEqual e = eq b a := by
  obtain ⟨k, hk, rfl⟩ := hexpects.of_data
  obtain rfl := hrecords.of_data hcopy hshow
  rw [Datum.comparable_of_isSome (by simp [hequal])]
  exact ⟨Datum.deepEqual_of_comparable hequal hk (by simp) (.inr rfl),
    Datum.deepEqual_of_comparable hequal (by simp) hk (.inl rfl)⟩

/-- Without an equality the written texts decide. -/
theorem deepEqual_of_written (hequal : t.equal? = none) (hcopy : t.cloneable) (hshow : t.printable)
    (hexpects : Expects (.data t) a e) (hrecords : Records (.data t) b r) :
    (e.deepEqual r ↔ (t.written a).spread = (t.written b).spread) ∧
      (r.deepEqual e ↔ (t.written a).spread = (t.written b).spread) := by
  obtain rfl := hexpects.of_incomparable hequal
  obtain rfl := hrecords.of_data hcopy hshow
  rw [Datum.comparable_of_none hequal]
  constructor
  · simp [Value.deepEqual, Datum.plain, Datum.deepEqual_of_plain]
  · rw [eq_comm (a := (t.written a).spread)]
    simp [Value.deepEqual, Datum.plain, Datum.deepEqual_of_plain]

end Sides

/-- What is expected of an argument and what is recorded of another of the same type, if that can be copied and written,
    agree with the type. Its equality, if it has one, decides either order, however the two were wrapped; without one
    the texts written of them do. -/
theorem expected_agrees_with_recorded {t : ArgumentType} (hcopy : t.cloneable) (hshow : t.printable)
    {a b : t.Content} {e r : Value} (hexpects : Expects t a e) (hrecords : Records t b r) :
    (∀ eq, t.equal? = some eq →
      e.deepEqual r = eq a b ∧ r.deepEqual e = eq b a ∧
        ((∀ x y, eq x y = eq y x) → r.deepEqual e = eq a b)) ∧
    (∀ write, t.equal? = none → t.written? = some write →
      (e.deepEqual r ↔ (write a).spread = (write b).spread) ∧
        (r.deepEqual e ↔ (write a).spread = (write b).spread)) := by
  cases t with
  | value | matcher | producer => simp [ArgumentType.equal?, ArgumentType.written?]
  | boxedError => simp [ArgumentType.cloneable] at hcopy
  | fixedText =>
    obtain rfl := hexpects.of_fixedText
    obtain rfl := hrecords.of_fixedText
    obtain ⟨hforth, hback⟩ := deepEqual_of_equal (t := .text) rfl rfl rfl
      (.literal (.wrapped .fixedText a)) (.borrowed "str" .text (.text b))
    refine ⟨?_, by simp [ArgumentType.equal?]⟩
    rintro eq ⟨rfl⟩
    exact ⟨hforth, hback, fun hsymm => hback.trans (hsymm b a)⟩
  | data t =>
    refine ⟨fun eq hequal => ?_, ?_⟩
    · obtain ⟨hforth, hback⟩ := deepEqual_of_equal hequal hcopy hshow hexpects hrecords
      exact ⟨hforth, hback, fun hsymm => hback.trans (hsymm b a)⟩
    · rintro write hequal ⟨rfl⟩
      exact deepEqual_of_written hequal hcopy hshow hexpects hrecords

/-- Numbers that are written without their digits. -/
def hiddenNumber (comparable : Bool) : DataType where
  name := "Hidden"
  written _ := .leaf "Hidden(..)"
  equal? := if comparable then some DataType.plainEqual else none

/-- Two hidden numbers differ by their equality, though one side was wrapped without it; without an equality nothing
    tells them apart. -/
theorem agreement_of_hiddenNumbers :
    ((Value.new (.data (hiddenNumber true)) (.int 1)).deepEqual
        (.capture (.data (hiddenNumber true)) (.int 2)) = false ∧
      (Value.capture (.data (hiddenNumber true)) (.int 2)).deepEqual
        (.new (.data (hiddenNumber true)) (.int 1)) = false) ∧
    (Value.new (.data (hiddenNumber false)) (.int 1)).deepEqual
      (.capture (.data (hiddenNumber false)) (.int 2)) = true := by
  obtain ⟨hforth, hback, -⟩ := (expected_agrees_with_recorded (t := .data (hiddenNumber true)) rfl rfl
    (.converted (.data (hiddenNumber true)) (Payload.int 1))
    (.owned (.data (hiddenNumber true)) (Payload.int 2))).1 DataType.plainEqual rfl
  have htexts := (expected_agrees_with_recorded (t := .data (hiddenNumber false)) rfl rfl
    (.converted (.data (hiddenNumber false)) (Payload.int 1))
    (.owned (.data (hiddenNumber false)) (Payload.int 2))).2 _ rfl rfl
  exact ⟨⟨hforth.trans (by decide), hback.trans (by decide)⟩, htexts.1.mpr rfl⟩

end TraitMock
