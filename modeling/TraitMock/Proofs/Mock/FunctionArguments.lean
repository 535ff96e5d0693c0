import Mathlib.Data.List.Basic
import TraitMock.Proofs.Mock.Coherence
import TraitMock.Samples.Functions

namespace TraitMock

/-- A type of functions that are called through a pointer. -/
structure FunctionType where
  isUnsafe : Bool := false
  /-- The calling convention, unless it is the usual one. -/
  convention? : Option String := none
  /-- The types of the parameters as they are written, with dots behind them if any further ones can be passed. -/
  params : List String := []
  /-- The type of the result as it is written, unless there is none. -/
  result? : Option String := none

namespace FunctionType

/-- What is written behind the safety and the convention. -/
def core (t : FunctionType) : String :=
  "fn(" ++ (", ".intercalate t.params ++ ")" ++ (t.result?.map (" -> " ++ ·)).getD "")

/-- The name of the type. -/
def name (t : FunctionType) : String :=
  (if t.isUnsafe then "unsafe " else "") ++
    match t.convention? with
    | some convention => "extern " ++ ("\"" ++ convention ++ "\" " ++ t.core)
    | none => t.core

/-- The type of an unsafe function of a convention of its own, in which no closure is mentioned. -/
structure IsOverlooked (t : FunctionType) : Prop where
  isUnsafe : t.isUnsafe = true
  convention : t.convention?.isSome = true
  noClosure : Text.contains t.name "\x7b\x7bclosure\x7d\x7d" = false

end FunctionType

/-- A datum is taken for a function if its type is a function type, unless that is overlooked. -/
theorem Datum.isFunction_iff_not_overlooked {d : Datum} {t : FunctionType} (hname : d.type.name = t.name) :
    d.isFunction = true ↔ ¬t.IsOverlooked := by
  obtain ⟨isUnsafe, convention?, params, result?⟩ := t
  cases isUnsafe with
  | false =>
    have hseen : d.isFunction = true := by
      cases convention? <;> simp [isFunction, hname, FunctionType.name, FunctionType.core, Text.beginsWith]
    exact ⟨fun _ hover => absurd hover.isUnsafe Bool.false_ne_true, fun _ => hseen⟩
  | true =>
    cases convention? with
    | none =>
      have hseen : d.isFunction = true := by
        simp [isFunction, hname, FunctionType.name, FunctionType.core, Text.beginsWith]
      exact ⟨fun _ hover => absurd hover.convention Bool.false_ne_true, fun _ => hseen⟩
    | some convention =>
      -- of the four tests only the last one can succeed
      have hlast : d.isFunction = Text.contains d.type.name "\x7b\x7bclosure\x7d\x7d" := by
        simp [isFunction, hname, FunctionType.name, Text.beginsWith, List.isPrefixOf]
      rw [hlast, hname]
      exact ⟨fun hclosure hover => by simp [hover.noClosure] at hclosure,
        fun hnot => by
          by_contra hclosure
          exact hnot ⟨rfl, rfl, by simpa using hclosure⟩⟩

/-- A function: one that produces return values, or one that is called through a pointer. -/
inductive Value.HoldsFunction : Value → Prop where
  | producer (p : Producer) : HoldsFunction (.producer p)
  | pointer {d : Datum} (t : FunctionType) (hname : d.type.name = t.name) : HoldsFunction (.data d)

/-- A value that is not taken for a function, though it holds one, is a pointer of a type that is overlooked. -/
theorem Value.HoldsFunction.overlooked {v : Value} (h : v.HoldsFunction) (hunseen : v.isFunction = false) :
    ∃ (d : Datum) (t : FunctionType), v = .data d ∧ d.type.name = t.name ∧ t.IsOverlooked := by
  cases h with
  | producer p => simp [isFunction] at hunseen
  | @pointer d t hname =>
    refine ⟨d, t, rfl, hname, ?_⟩
    by_contra hnot
    rw [isFunction, (Datum.isFunction_iff_not_overlooked hname).mpr hnot] at hunseen
    exact Bool.noConfusion hunseen

namespace Arguments

/-- The first function of an argument list stands at a position. -/
structure FirstFunction (args : Arguments) (i : Nat) : Prop where
  found : ∃ v, args[i]? = some v ∧ v.isFunction = true
  first : ∀ j < i, ∀ v, args[j]? = some v → v.isFunction = false

variable {args : Arguments}

private theorem firstFunction_of_functionAt? {i : Nat} (h : args.functionAt? = some i) : args.FirstFunction i := by
  obtain ⟨hi, hfound, hfirst⟩ := List.findIdx?_eq_some_iff_getElem.mp h
  refine ⟨⟨args[i], List.getElem?_eq_getElem hi, hfound⟩, fun j hj v hv => ?_⟩
  obtain ⟨_, rfl⟩ := List.getElem?_eq_some_iff.mp hv
  simpa using hfirst j hj

/-- An argument list in which a function is seen has a first one. -/
theorem exists_firstFunction {v : Value} (hv : v ∈ args) (hfunction : v.isFunction = true) :
    ∃ i, args.functionAt? = some i ∧ args.FirstFunction i := by
  cases hfirst : args.functionAt? with
  | none =>
    have hnone := List.findIdx?_eq_none_iff.mp hfirst v hv
    simp [hfunction] at hnone
  | some i => exact ⟨i, rfl, firstFunction_of_functionAt? hfirst⟩

end Arguments

namespace Expectation

/-- The arguments that are expected hold nothing that is taken for a function. -/
def SeesNoFunction (e : Expectation) : Prop :=
  ∀ pattern, e.pattern? = some pattern → ∀ v ∈ pattern, v.isFunction = false

variable {e e' : Expectation} {pattern : Arguments} {i : Nat}

theorem refuseFunctions_of_functionAt? (h : pattern.functionAt? = some i) :
    refuseFunctions pattern = .error (.functionArgument i) := by
  rw [refuseFunctions, h]

theorem not_isFunction_of_refuseFunctions (h : refuseFunctions pattern = .ok ()) :
    ∀ v ∈ pattern, v.isFunction = false := by
  intro v hv
  by_contra hfunction
  obtain ⟨i, hat, -⟩ := Arguments.exists_firstFunction hv (by simpa using hfunction)
  simp [refuseFunctions_of_functionAt? hat] at h

private theorem on_of_functionAt? (h : pattern.functionAt? = some i) (m : Nat) (method location : String) :
    on m method pattern location = .error (.functionArgument i) := by
  rw [on, refuseFunctions_of_functionAt? h]
  rfl

/-- The pattern is looked at before it is asked whether there is a proxy that it is for. -/
theorem apply_with_of_functionAt? (h : pattern.functionAt? = some i) (e : Expectation) :
    e.apply (.with_ pattern) = .error (.functionArgument i) := by
  rw [apply, refuseFunctions_of_functionAt? h]
  rfl

/-- Setting up an expectation leaves its pattern as it is, or replaces it by one without functions. -/
theorem SeesNoFunction.apply {setting : Setting} (h : e.SeesNoFunction) (happly : e.apply setting = .ok e') :
    e'.SeesNoFunction := by
  cases setUp_of_apply happly with
  | with_ pattern hallowed =>
    rintro pattern' ⟨⟩
    exact not_isFunction_of_refuseFunctions hallowed
  | _ => exact h

end Expectation

namespace Session

private theorem seesNoFunction_of_registered? {a : Act} {e : Expectation} (h : a.registered? = some e) :
    e.SeesNoFunction := by
  intro pattern hpattern
  cases a.registers_of_registered? h with
  | on m method location hallowed =>
    cases hpattern
    exact Expectation.not_isFunction_of_refuseFunctions hallowed
  | onAny | answerWith => cases hpattern

/-- No expectation has a pattern in which a function is seen. -/
def SeesNoFunction (s : Session) : Prop := ∀ id e, s.expectation? id = some e → e.SeesNoFunction

private theorem seesNoFunction_empty : SeesNoFunction {} := by
  intro id e he
  simp [expectation?] at he

theorem SeesNoFunction.after {s : Session} (h : s.SeesNoFunction) (a : Act) : (s.after a).SeesNoFunction :=
  (change s a).forall_expectation h (fun _ => seesNoFunction_of_registered?)
    (fun happly hold => hold.apply happly) fun hold => hold

/-- Expecting the arguments, in a new expectation or in one that exists, is the usage error of a function at a position
    and changes nothing. -/
structure RefusesFunction (s : Session) (pattern : Arguments) (i : Nat) : Prop where
  on : ∀ m method location, s.on m method pattern location = .error (.functionArgument i)
  with_ : ∀ id e, s.expectation? id = some e → s.configure id (.with_ pattern) = .error (.functionArgument i)
  after_on : ∀ m method location, s.after (.on m method pattern location) = s
  after_with : ∀ id, s.after (.configure id (.with_ pattern)) = s

private theorem refusesFunction_of_functionAt? {pattern : Arguments} {i : Nat} (h : pattern.functionAt? = some i)
    (s : Session) : s.RefusesFunction pattern i := by
  have hon : ∀ m method location, s.on m method pattern location = .error (.functionArgument i) := by
    intro m method location
    rw [on, Expectation.on_of_functionAt? h]
    rfl
  have hwith : ∀ id e, s.expectation? id = some e →
      s.configure id (.with_ pattern) = .error (.functionArgument i) := by
    intro id e he
    simp only [configure, he, known, Expectation.apply_with_of_functionAt? h]
  refine ⟨hon, hwith, fun m method location => ?_, fun id => ?_⟩
  · simp only [after, hon]
  · cases he : s.expectation? id with
    | none => simp only [after, configure, he]
    | some e => simp only [after, hwith id e he]

/-- Whatever a test does, the arguments that its expectations expect hold no function, other than pointers to
    functions that are unsafe and have a convention of their own. Expecting any other function, at whatever position,
    is a usage error that names the first one and changes nothing. -/
theorem expected_functions_are_overlooked (acts : List Act) :
    (∀ id e pattern, (run {} acts).expectation? id = some e → e.pattern? = some pattern → ∀ v ∈ pattern,
      v.HoldsFunction → ∃ (d : Datum) (t : FunctionType), v = .data d ∧ d.type.name = t.name ∧ t.IsOverlooked) ∧
    (∀ pattern : Arguments, ∀ v ∈ pattern, v.HoldsFunction →
      (∀ (d : Datum) (t : FunctionType), v = .data d → d.type.name = t.name → ¬t.IsOverlooked) →
      ∃ i, pattern.FirstFunction i ∧ (run {} acts).RefusesFunction pattern i) := by
  have hunseen : (run {} acts).SeesNoFunction := run_keeps acts seesNoFunction_empty fun s a h => h.after a
  refine ⟨fun id e pattern he hpattern v hv hholds => ?_, fun pattern v hv hholds hseen => ?_⟩
  · exact hholds.overlooked (hunseen id e he pattern hpattern v hv)
  · have hfunction : v.isFunction = true := by
      by_contra hnot
      obtain ⟨d, t, hdatum, hname, hover⟩ := hholds.overlooked (by simpa using hnot)
      exact hseen d t hdatum hname hover
    obtain ⟨i, hat, hfirst⟩ := Arguments.exists_firstFunction hv hfunction
    exact ⟨i, hfirst, refusesFunction_of_functionAt? hat _⟩

/-- A pointer to a function. -/
def pointerTo (t : FunctionType) : Value := .data ⟨.functionPointer t.name, .unit, .plain⟩

/-- A callback behind a text. -/
def subscription : Arguments := [.text "topic", pointerTo { params := ["i32"], result? := some "i32" }]

theorem subscription_is_refused :
    ∃ i, subscription.FirstFunction i ∧ (run {} [.newMock false]).RefusesFunction subscription i := by
  refine (expected_functions_are_overlooked [.newMock false]).2 subscription _ (List.mem_cons_of_mem _ (.head _))
    (.pointer { params := ["i32"], result? := some "i32" } rfl) fun d t hdatum hname hover => ?_
  cases hdatum
  exact (Datum.isFunction_iff_not_overlooked hname).mp (by decide) hover

/-- A producer of return values is a function, too. -/
example : Expectation.refuseFunctions [.text "topic", .wildcard, Samples.producer "shop" 0 "get"] =
    .error (.functionArgument 2) :=
  rfl

/-- An expectation is registered that expects a pointer to an unsafe function of another convention. -/
theorem foreign_callback_is_expected :
    ¬∀ (pattern : Arguments), (∃ v ∈ pattern, v.HoldsFunction) →
      ∃ i, (run {} [.newMock false]).RefusesFunction pattern i := by
  intro hrefused
  let callback : FunctionType := { isUnsafe := true, convention? := some "C", params := ["i32"] }
  obtain ⟨i, hrefuses⟩ := hrefused [pointerTo callback] ⟨_, .head _, .pointer callback rfl⟩
  have hsame := hrefuses.after_on 0 "Subscribe" "shop.rs:1"
  have hlengths := congrArg (fun s => s.expectations.length) hsame
  revert hlengths
  decide

end Session
end TraitMock
