import Mathlib.Data.List.Basic
import TraitMock.Samples.Functions

namespace TraitMock

/-- A value has the type asked for. Every value has the type of all values, nothing included. -/
def Wanted.Takes : Wanted → Value → Prop
  | .value, _ => True
  | .data type, v => ∃ d, v = .data d ∧ d.type.name = type.name

private theorem Wanted.read?_of_takes {w : Wanted} {v : Value} (h : w.Takes v) : w.read? v = some v := by
  cases w with
  | value => rfl
  | data type =>
    obtain ⟨d, rfl, hname⟩ := h
    simp [read?, hname]

private theorem Wanted.read?_of_not_takes {w : Wanted} {v : Value} (h : ¬w.Takes v) : w.read? v = none := by
  cases w with
  | value => exact absurd trivial h
  | data type =>
    cases v with
    | data d => simpa [read?, Takes] using h
    | _ => rfl

namespace ProxyFunction

/-- A function takes this number of arguments: one for each parameter, or more if it collects the further ones. -/
def Counts (f : ProxyFunction) (n : Nat) : Prop :=
  match f.rest? with
  | none => n = f.params.length
  | some _ => f.params.length ≤ n

/-- The type asked for at a position; behind the parameters it is that of the further arguments, if these are
    collected. -/
def wantedAt? (f : ProxyFunction) (i : Nat) : Option Wanted :=
  if i < f.params.length then f.params[i]? else f.rest?

/-- The arguments at the first `n` positions have the types asked for there. -/
def TypedUpTo (f : ProxyFunction) (n : Nat) (args : Arguments) : Prop :=
  ∀ i < n, ∀ v w, args[i]? = some v → f.wantedAt? i = some w → w.Takes v

/-- The arguments are ones that the function can be called with. -/
def Fits (f : ProxyFunction) (args : Arguments) : Prop := f.Counts args.length ∧ f.TypedUpTo args.length args

variable {f : ProxyFunction} {args : Arguments}

private theorem argument_of_takes {i : Nat} {v : Value} {w : Wanted} (hvalue : args[i]? = some v) (h : w.Takes v) :
    argument args i w = .ok v := by
  simp [argument, Arguments.get, hvalue, Wanted.read?_of_takes h]

private theorem argument_of_not_takes {i : Nat} {v : Value} {w : Wanted} (hvalue : args[i]? = some v) (h : ¬w.Takes v) :
    argument args i w = .error (.wrongType i v.typeName w.shortName) := by
  simp [argument, Arguments.get, hvalue, Wanted.read?_of_not_takes h]

private theorem argument_of_missing {i : Nat} (hmissing : args.length ≤ i) (w : Wanted) :
    argument args i w = .error (.argument (.outOfRange i args.length)) := by
  simp [argument, Arguments.get, List.getElem?_eq_none hmissing]

/-- From position `i` on, the first `n` of several parameters find an argument of their type. -/
def Given (args : Arguments) (i : Nat) (ws : List Wanted) (n : Nat) : Prop :=
  ∀ j < n, ∀ w, ws[j]? = some w → ∃ v, args[i + j]? = some v ∧ w.Takes v

variable {ws : List Wanted} {w : Wanted} {i j n : Nat}

theorem Given.head (h : Given args i (w :: ws) (n + 1)) :
    ∃ hi : i < args.length, argument args i w = .ok args[i] := by
  obtain ⟨v, hvalue, htakes⟩ := h 0 (by omega) w rfl
  obtain ⟨hi, rfl⟩ := List.getElem?_eq_some_iff.mp hvalue
  exact ⟨hi, argument_of_takes hvalue htakes⟩

theorem Given.tail (h : Given args i (w :: ws) (n + 1)) : Given args (i + 1) ws n := by
  intro j hj w' hw'
  have hnext := h (j + 1) (by omega) w' hw'
  rwa [show i + (j + 1) = i + 1 + j by omega] at hnext

/-- Parameters that all find an argument of their type are given these arguments. -/
theorem leading_eq_ok (h : Given args i ws ws.length) : leading args i ws = .ok ((args.drop i).take ws.length) := by
  induction ws generalizing i with
  | nil => rfl
  | cons w ws ih =>
    obtain ⟨hi, hfirst⟩ := h.head
    rw [leading, hfirst, ih h.tail, List.drop_eq_getElem_cons hi]
    rfl

/-- The first parameter that does not find an argument of its type decides the failure. -/
theorem leading_eq_error {e : ProxyError} (h : Given args i ws j) (hw : ws[j]? = some w)
    (hfault : argument args (i + j) w = .error e) : leading args i ws = .error e := by
  induction ws generalizing i j with
  | nil => simp at hw
  | cons first ws ih =>
    cases j with
    | zero =>
      obtain rfl : first = w := by simpa using hw
      have hfirst : argument args i first = .error e := hfault
      rw [leading, hfirst]
      rfl
    | succ j =>
      obtain ⟨hi, hfirst⟩ := h.head
      have hlater : argument args (i + 1 + j) w = .error e := by rwa [show i + 1 + j = i + (j + 1) by omega]
      rw [leading, hfirst, ih h.tail (by simpa using hw) hlater]
      rfl

theorem TypedUpTo.mono {m n : Nat} (h : f.TypedUpTo n args) (hle : m ≤ n) : f.TypedUpTo m args :=
  fun i hi => h i (by omega)

/-- The parameters that have an argument find one of their type, if the arguments have their types. -/
theorem TypedUpTo.given_params (h : f.TypedUpTo n args) (hle : n ≤ args.length) :
    Given args 0 f.params n := by
  intro j hj w hw
  obtain ⟨hlt, -⟩ := List.getElem?_eq_some_iff.mp hw
  have hvalue := List.getElem?_eq_getElem (show j < args.length by omega)
  rw [Nat.zero_add]
  exact ⟨_, hvalue, h j hj _ w hvalue (by rw [wantedAt?, if_pos hlt, hw])⟩

/-- The further arguments have the type of those that are collected, if the arguments have their types. -/
theorem TypedUpTo.given_rest (h : f.TypedUpTo n args) (hle : n ≤ args.length) (hrest : f.rest? = some w) :
    Given args f.params.length (List.replicate (args.length - f.params.length) w) (n - f.params.length) := by
  intro j hj w' hw'
  obtain ⟨-, rfl⟩ := List.getElem?_eq_some_iff.mp hw'
  have hvalue := List.getElem?_eq_getElem (show f.params.length + j < args.length by omega)
  refine ⟨_, hvalue, h _ (by omega) _ _ hvalue ?_⟩
  rw [wantedAt?, if_neg (by omega), hrest, List.getElem_replicate]

theorem accept_of_leading_error {e : ProxyError} (h : leading args 0 f.params = .error e) :
    f.accept args = .error e := by
  rw [accept, h]
  rfl

theorem accept_of_rest?_none {front : Arguments} (hrest : f.rest? = none) (h : leading args 0 f.params = .ok front) :
    f.accept args =
      if args.length ≠ f.params.length then .error (.wrongCount false f.params.length args.length)
      else .ok front := by
  rw [accept, h]
  simp only [hrest]
  rfl

theorem accept_of_rest?_some {front : Arguments} (hrest : f.rest? = some w) (h : leading args 0 f.params = .ok front)
    (hle : f.params.length ≤ args.length) :
    f.accept args =
      (leading args f.params.length (List.replicate (args.length - f.params.length) w)).map (front ++ ·) := by
  rw [accept, h]
  simp only [hrest, bind, Except.bind, if_neg (Nat.not_lt.mpr hle)]
  cases leading args f.params.length (List.replicate (args.length - f.params.length) w) <;> rfl

/-- Arguments that fit are passed on as they are. -/
theorem accept_of_fits (h : f.Fits args) : f.accept args = .ok args := by
  obtain ⟨hcount, htyped⟩ := h
  cases hrest : f.rest? with
  | none =>
    have hlength : args.length = f.params.length := by simpa [Counts, hrest] using hcount
    have hfront := leading_eq_ok ((htyped.mono (Nat.le_of_eq hlength.symm)).given_params (Nat.le_of_eq hlength.symm))
    rw [accept_of_rest?_none hrest hfront, if_neg (by simp [hlength]), List.drop_zero, ← hlength, List.take_length]
  | some w =>
    have hle : f.params.length ≤ args.length := by simpa [Counts, hrest] using hcount
    have hfront := leading_eq_ok ((htyped.mono hle).given_params hle)
    have hgiven : Given args f.params.length (List.replicate (args.length - f.params.length) w)
        (List.replicate (args.length - f.params.length) w).length := by
      simpa using htyped.given_rest args.length.le_refl hrest
    have hback := leading_eq_ok hgiven
    have hall : (args.drop f.params.length).take (args.length - f.params.length) = args.drop f.params.length :=
      List.take_of_length_le (by simp)
    rw [accept_of_rest?_some hrest hfront hle, hback, List.drop_zero, List.length_replicate, hall, Except.map,
      List.take_append_drop]

/-- The first argument of another type than that of its parameter is refused. -/
theorem accept_of_wrong_type {v : Value} (hvalue : args[i]? = some v) (hwanted : f.wantedAt? i = some w)
    (hwrong : ¬w.Takes v) (htyped : f.TypedUpTo i args) :
    f.accept args = .error (.wrongType i v.typeName w.shortName) := by
  obtain ⟨hi, -⟩ := List.getElem?_eq_some_iff.mp hvalue
  have hfault := argument_of_not_takes hvalue hwrong
  unfold wantedAt? at hwanted
  split at hwanted
  · exact accept_of_leading_error
      (leading_eq_error (htyped.given_params (Nat.le_of_lt hi)) hwanted (by rwa [Nat.zero_add]))
  · rename_i hbehind
    have hle : f.params.length ≤ args.length := by omega
    have hfront := leading_eq_ok ((htyped.mono (by omega)).given_params hle)
    have hrest := htyped.given_rest (Nat.le_of_lt hi) hwanted
    have hlast : (List.replicate (args.length - f.params.length) w)[i - f.params.length]? = some w := by
      rw [List.getElem?_replicate, if_pos (by omega)]
    have hback := leading_eq_error hrest hlast (by rwa [show f.params.length + (i - f.params.length) = i by omega])
    rw [accept_of_rest?_some hwanted hfront hle, hback]
    rfl

/-- Of too few arguments that all have their types, the first that is missing is not found. -/
theorem accept_of_too_few (htyped : f.TypedUpTo args.length args) (hfew : args.length < f.params.length) :
    f.accept args = .error (.argument (.outOfRange args.length args.length)) := by
  have hfirst := List.getElem?_eq_getElem hfew
  have hfault := argument_of_missing args.length.le_refl f.params[args.length]
  exact accept_of_leading_error
    (leading_eq_error (htyped.given_params args.length.le_refl) hfirst (by rwa [Nat.zero_add]))

/-- Too many arguments are counted when all parameters have one of their type. -/
theorem accept_of_too_many (hrest : f.rest? = none) (htyped : f.TypedUpTo f.params.length args)
    (hmany : f.params.length < args.length) :
    f.accept args = .error (.wrongCount false f.params.length args.length) := by
  have hfront := leading_eq_ok (htyped.given_params (Nat.le_of_lt hmany))
  rw [accept_of_rest?_none hrest hfront, if_pos (by omega)]

/-- What keeps a function from being called: an argument of another type, or else a missing or a further argument. -/
inductive Misfit (f : ProxyFunction) (args : Arguments) : ProxyError → Prop where
  | wrongType {i : Nat} {v : Value} {w : Wanted} (hvalue : args[i]? = some v) (hwanted : f.wantedAt? i = some w)
      (hwrong : ¬w.Takes v) (htyped : f.TypedUpTo i args) : Misfit f args (.wrongType i v.typeName w.shortName)
  | tooFew (htyped : f.TypedUpTo args.length args) (hfew : args.length < f.params.length) :
      Misfit f args (.argument (.outOfRange args.length args.length))
  | tooMany (hrest : f.rest? = none) (htyped : f.TypedUpTo f.params.length args)
      (hmany : f.params.length < args.length) : Misfit f args (.wrongCount false f.params.length args.length)

private theorem Misfit.accept_eq {e : ProxyError} (h : Misfit f args e) : f.accept args = .error e := by
  cases h with
  | wrongType hvalue hwanted hwrong htyped => exact accept_of_wrong_type hvalue hwanted hwrong htyped
  | tooFew htyped hfew => exact accept_of_too_few htyped hfew
  | tooMany hrest htyped hmany => exact accept_of_too_many hrest htyped hmany

/-- Arguments that do not have their types have a first one that does not. -/
theorem exists_misfit_of_not_typed (h : ¬f.TypedUpTo n args) : ∃ e, Misfit f args e := by
  induction n with
  | zero => exact absurd (fun i hi => absurd hi (Nat.not_lt_zero i)) h
  | succ n ih =>
    by_cases hearlier : f.TypedUpTo n args
    · by_contra hnone
      refine h fun i hi v w hvalue hwanted => ?_
      rcases Nat.lt_succ_iff_lt_or_eq.mp hi with hlt | rfl
      · exact hearlier i hlt v w hvalue hwanted
      · by_contra hwrong
        exact hnone ⟨_, .wrongType hvalue hwanted hwrong hearlier⟩
    · exact ih hearlier

theorem exists_misfit (h : ¬f.Fits args) : ∃ e, Misfit f args e := by
  by_cases htyped : f.TypedUpTo args.length args
  · have hcount : ¬f.Counts args.length := fun hcount => h ⟨hcount, htyped⟩
    rcases Nat.lt_trichotomy args.length f.params.length with hfew | heq | hmany
    · exact ⟨_, .tooFew htyped hfew⟩
    · cases hrest : f.rest? <;> simp [Counts, hrest, heq] at hcount
    · cases hrest : f.rest? with
      | none => exact ⟨_, .tooMany hrest (htyped.mono (Nat.le_of_lt hmany)) hmany⟩
      | some w => simp [Counts, hrest, (Nat.le_of_lt hmany)] at hcount
  · exact exists_misfit_of_not_typed htyped

end ProxyFunction

namespace Proxy

/-- The proxy with another function body, which takes the same arguments. -/
def doing (p : Proxy) (run : Nat → MatchLog → Arguments → Except PanicPayload Arguments) : Proxy :=
  { p with function := { p.function with run } }

/-- A call with the arguments calls the function, whatever that does, with the given values. -/
def Invokes (p : Proxy) (args values : Arguments) : Prop :=
  ∀ run turn log, (p.doing run).call turn log args = run turn log values

/-- A call with the arguments panics without calling the function, whatever that would do. -/
def Refuses (p : Proxy) (args : Arguments) (e : ProxyError) : Prop :=
  ∀ run turn log, (p.doing run).call turn log args = .error (.text e.message)

variable {p : Proxy} {args values : Arguments}

theorem call_doing (p : Proxy) (run : Nat → MatchLog → Arguments → Except PanicPayload Arguments) (turn : Nat)
    (log : MatchLog) (args : Arguments) :
    (p.doing run).call turn log args =
      match p.function.accept args with
      | .ok values => run turn log values
      | .error e => .error (.text e.message) :=
  rfl

theorem invokes_of_accept (h : p.function.accept args = .ok values) : p.Invokes args values := by
  intro run turn log
  rw [call_doing, h]

theorem refuses_of_misfit {e : ProxyError} (h : p.function.Misfit args e) : p.Refuses args e := by
  intro run turn log
  rw [call_doing, h.accept_eq]

/-- A function that is called with certain values cannot be refused, nor be called with others. -/
theorem Invokes.values_eq {values' : Arguments} (h : p.Invokes args values) (h' : p.Invokes args values') :
    values = values' := by
  have hsame := (h (fun _ _ values => .ok values) 0 {}).symm.trans (h' (fun _ _ values => .ok values) 0 {})
  simpa using hsame

private theorem Invokes.not_refuses {e : ProxyError} (h : p.Invokes args values) : ¬p.Refuses args e := by
  intro hrefuses
  have hsame := (h (fun _ _ values => .ok values) 0 {}).symm.trans (hrefuses (fun _ _ values => .ok values) 0 {})
  simp at hsame

/-- A proxy calls its function exactly when the arguments are as many as the function takes and have the types of
    its parameters, and then with just these arguments in order, the further ones included. Otherwise it panics without
    calling the function: for the first argument that has another type, else for the first one that is missing, else
    for those left over, where only the last of these says how many are wanted. -/
theorem proxy_checks_before_it_calls (p : Proxy) (args : Arguments) :
    (∀ values, p.Invokes args values ↔ p.function.Fits args ∧ values = args) ∧
    (¬p.function.Fits args → ∃ e, p.function.Misfit args e ∧ p.Refuses args e) ∧
    ∀ e, p.function.Misfit args e → p.Refuses args e := by
  refine ⟨fun values => ⟨fun hinvokes => ?_, ?_⟩, fun hmisfit => ?_, fun e => refuses_of_misfit⟩
  · have hfits : p.function.Fits args := by
      by_contra hnot
      obtain ⟨e, hmisfit⟩ := ProxyFunction.exists_misfit hnot
      exact hinvokes.not_refuses (refuses_of_misfit hmisfit)
    have hown := invokes_of_accept (p := p) (ProxyFunction.accept_of_fits hfits)
    exact ⟨hfits, hinvokes.values_eq hown⟩
  · rintro ⟨hfits, rfl⟩
    exact invokes_of_accept (ProxyFunction.accept_of_fits hfits)
  · obtain ⟨e, hmisfit⟩ := ProxyFunction.exists_misfit hmisfit
    exact ⟨e, hmisfit, refuses_of_misfit hmisfit⟩

/-- A function of a text and a number. -/
def pairing : Proxy := .ofFunction (Samples.function "shop" "lookup")

/-- A function of a text and further texts. -/
def joining : Proxy := .ofFunction (Samples.function "shop" "join")

/-- A text and a number. -/
def keyAndNumber : Arguments := [.text "abc", .data ⟨.int "i32", .int 1, .plain⟩]

private theorem pairing_fits : pairing.function.Fits keyAndNumber := by
  refine ⟨rfl, fun i hi v w hvalue hwanted => ?_⟩
  match i, hi with
  | 0, _ =>
    cases hvalue
    cases hwanted
    exact ⟨_, rfl, rfl⟩
  | 1, _ =>
    cases hvalue
    cases hwanted
    exact ⟨_, rfl, rfl⟩

private theorem pairing_lacks_both : pairing.function.Misfit [] (.argument (.outOfRange 0 0)) :=
  .tooFew (fun _ hi => absurd hi (Nat.not_lt_zero _)) (by decide)

/-- Two arguments that fit are passed on; without any, the first one is not found. -/
theorem checks_of_pairing :
    pairing.Invokes keyAndNumber keyAndNumber ∧ pairing.Refuses [] (.argument (.outOfRange 0 0)) :=
  ⟨((proxy_checks_before_it_calls pairing keyAndNumber).1 keyAndNumber).mpr ⟨pairing_fits, rfl⟩,
    (proxy_checks_before_it_calls pairing _).2.2 _ pairing_lacks_both⟩

/-- Whether or not a function collects further arguments, a call with too few of them does not say how many are
    wanted: the missing one is looked up before the arguments are counted. -/
theorem too_few_are_not_counted :
    ¬∀ (p : Proxy) (args : Arguments), ¬p.function.Counts args.length →
      p.Refuses args (.wrongCount p.function.rest?.isSome p.function.params.length args.length) := by
  intro hcounted
  have hrefused := hcounted joining [] (by simp [ProxyFunction.Counts, joining, ofFunction, Samples.function]) joining.function.run 0 {}
  have hmessages : (ProxyError.argument (.outOfRange 0 0)).message = (ProxyError.wrongCount true 1 0).message :=
    PanicPayload.text.inj (Except.error.inj hrefused)
  exact absurd hmessages (by decide)

end Proxy
end TraitMock
