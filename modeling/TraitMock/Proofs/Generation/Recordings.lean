import TraitMock.Proofs.Generation.ParameterNames
import TraitMock.Proofs.Generation.Results

namespace TraitMock.Generation

open Files (Tree)
open Modules (SeenAs)
open Signature (Mirrors SigType)
open Syntax (MethodDecl PathText TypeExpr)

section Places

/-- A position of a pattern or of a recorded call: a parameter as a whole, or one element of it. -/
inductive Place where
  | whole (param : String)
  | element (param : String) (k : Nat)
  deriving DecidableEq, Repr

/-- The positions of a pattern that a helper registers when it is given so many elements. -/
def Helper.places (h : Helper) (count : Nat) : List Place :=
  h.values.map .whole ++ h.elements.toList.flatMap fun param => (List.range count).map (.element param)

/-- The positions that the recording of a parameter takes up when the parameter has so many elements. -/
inductive Records (count : Nat) : Param → Recording → List Place → Prop where
  | whole (p : Param) : Records count p (.single (recordedValue p.name p.type false)) [.whole p.name]
  | elements (p : Param) {t : SigType} (ht : Method.elementOf p.type = some t) :
    Records count p (.each p.name (recordedValue "_v" t true)) ((List.range count).map (.element p.name))

/-- The positions that the recordings of several parameters take up, one parameter after the other. -/
inductive RecordsAll (count : Nat) : List Param → List Recording → List Place → Prop where
  | nil : RecordsAll count [] [] []
  | cons {p : Param} {ps : List Param} {r : Recording} {rs : List Recording} {places more : List Place}
    (hfirst : Records count p r places) (hrest : RecordsAll count ps rs more) :
    RecordsAll count (p :: ps) (r :: rs) (places ++ more)

/-- The positions of a method whose variadic parameter, if it has one, has so many elements. -/
def placesOf (m : Method) (count : Nat) : List Place :=
  if m.isVariadic then
    m.params.dropLast.map (fun p => .whole p.name) ++
      m.params.getLast?.toList.flatMap fun p => (List.range count).map (.element p.name)
  else m.params.map fun p => .whole p.name

theorem placesOf_of_variadic {m : Method} {front : List Param} {last : Param} (h : m.isVariadic = true)
    (hparams : m.params = front ++ [last]) (count : Nat) :
    placesOf m count = front.map (fun p => .whole p.name) ++ (List.range count).map (.element last.name) := by
  simp [placesOf, h, hparams]

/-- When every variadic parameter has one element, there is one position for each parameter. -/
theorem RecordsAll.length_eq {ps : List Param} {rs : List Recording} {places : List Place}
    (h : RecordsAll 1 ps rs places) : places.length = ps.length := by
  induction h with
  | nil => rfl
  | cons hfirst _ ih => cases hfirst <;> simp [ih]

theorem RecordsAll.single {count : Nat} {p : Param} {r : Recording} {places : List Place}
    (h : Records count p r places) : RecordsAll count [p] [r] places := by
  simpa using RecordsAll.cons h .nil

private theorem recordsAll_ofParams_none (count : Nat) (ps : List Param) :
    RecordsAll count ps (Recording.ofParams none ps) (ps.map fun p => .whole p.name) := by
  fun_induction Recording.ofParams none ps with
  | case1 => exact .nil
  | case2 p t h => cases h
  | case3 p => exact .single (.whole p)
  | case4 p rest hrest ih => exact .cons (.whole p) ih

private theorem recordsAll_ofParams_some (count : Nat) {t : SigType} {front : List Param} {last : Param}
    (ht : Method.elementOf last.type = some t) :
    RecordsAll count (front ++ [last]) (Recording.ofParams (some t) (front ++ [last]))
      (front.map (fun p => .whole p.name) ++ (List.range count).map (.element last.name)) := by
  induction front with
  | nil => exact .single (.elements last ht)
  | cons p front ih =>
    have hmore : front ++ [last] ≠ [] := by simp
    obtain ⟨next, rest, hnext⟩ := List.exists_cons_of_ne_nil hmore
    have hcons := RecordsAll.cons (Records.whole p) ih
    rw [List.cons_append, hnext, Recording.ofParams, ← hnext]
    · exact hcons
    · simp

end Places

section Variadic

variable {variadicSlices : Bool} {m : Method}

/-- The last parameter of a variadic method is a shared slice, whose elements have a type. -/
theorem exists_last_of_isVariadic (hread : m.isVariadic = (variadicSlices && Method.endsInSlice m.params))
    (h : m.isVariadic = true) :
    ∃ front last t, m.params = front ++ [last] ∧ (∃ l, last.type = .reference l false (.slice t)) := by
  have hends : Method.endsInSlice m.params = true := by
    rw [hread, Bool.and_eq_true] at h
    exact h.2
  rcases List.eq_nil_or_concat m.params with hnil | ⟨front, last, hlast⟩
  · rw [hnil] at hends
    cases hends
  · rw [List.concat_eq_append] at hlast
    refine ⟨front, last, ?_⟩
    rw [Method.endsInSlice, hlast, List.getLast?_concat] at hends
    split at hends
    · rename_i name anonymous l inner heq
      obtain rfl := Option.some.inj heq
      cases inner with
      | slice t => exact ⟨t, hlast, l, rfl⟩
      | _ => cases hends
    · cases hends

end Variadic

section Producers

/-- A parameter is passed on to a function as it is, or borrowed once more if values can be changed through it. -/
def Passes (p : Param) (arg : String) : Prop :=
  arg = p.name ∧ (∀ l inner, p.type ≠ .reference l true inner) ∨
    ∃ l inner, p.type = .reference l true inner ∧ arg = "&mut *" ++ p.name

private theorem passes_passedOn (p : Param) : Passes p (passedOn p) := by
  unfold passedOn
  split
  · rename_i l inner htype
    exact .inr ⟨l, inner, htype, rfl⟩
  · rename_i hnot
    exact .inl ⟨rfl, hnot⟩

/-- The function `f` may produce the value of a position, which has the type `t`: it is asked for by a type that has the
    types of all parameters in their order, and is called with all of them in this order. -/
structure Produces (m : Method) (t : SigType) (p : Position) (f : Producer) : Prop where
  type : f.type = "dyn Fn(" ++ commas (m.params.map fun q => q.type.render .elided) ++ ") -> " ++ t.render .elided ++
    " + Send + Sync"
  args : List.Forall₂ Passes m.params f.args
  asked : Code.Says p.code ("_rets.func::<" ++ f.type ++ ">(" ++ toString p.index ++ ")")
  called : Code.Says p.code f.call
  /-- A copy of a parameter has the name of the parameter where the function is called. -/
  copies : ∀ c ∈ f.copies, (∃ q ∈ m.params, c = (q.name, q.type.render .kept)) ∧
    Code.Says p.code (copyText c)
  copied : f.copies ≠ [] → Code.Says p.code (f.found ++ f.call)

variable {p : Position} {f : Producer}

/-- Without copies, the function is asked for in the head of the match and called in its first arm. -/
theorem says_single (h : p.producer = some f) (hcopies : f.copies = []) :
    Code.Says p.code (p.produced f) ∧ Code.Says p.code f.call := by
  have hcode := code_of_producer h hcopies
  have harms : Code.inner (["Some(_f) => " ++ f.call ++ ",", "None => " ++ p.configured ++ ","].map .line) ∈
      p.code := by
    simp [hcode, Code.bracedThen]
  exact ⟨Code.says_of_line (p.opening ++ "match ") " \x7b" (by simp [hcode, Code.bracedThen]),
    Code.says_of_inner harms "Some(_f) => " "," (by simp)⟩

/-- With copies, these are asked for together with the function. -/
theorem says_copied (h : p.producer = some f) (hcopies : f.copies ≠ []) :
    Code.Says p.code (p.produced f) ∧ (∀ c ∈ f.copies, Code.Says p.code (copyText c)) ∧
      Code.Says p.code (f.found ++ f.call) := by
  have hcode := code_of_copies h hcopies
  have hasked : Code.inner (((p.produced f ++ ",") :: f.copies.map copyText).map .line) ∈ p.code := by
    simp [hcode]
  have harms : Code.inner ([f.found ++ f.call ++ ",", "_ => " ++ p.configured ++ ","].map .line) ∈ p.code := by
    simp [hcode, Code.bracedThen]
  refine ⟨Code.says_of_inner hasked "" "," (by simp), fun c hc => ?_, Code.says_of_inner harms "" "," (by simp)⟩
  have hmem : copyText c ∈ (p.produced f ++ ",") :: f.copies.map copyText :=
    List.mem_cons_of_mem _ (List.mem_map_of_mem hc)
  exact Code.says_of_inner hasked "" "" (by simpa using hmem)

theorem produces {m : Method} {t : SigType} (h : p.producer = some (.ofMethod m t)) :
    Produces m t p (.ofMethod m t) := by
  have hargs : List.Forall₂ Passes m.params (m.params.map passedOn) := by
    rw [List.forall₂_map_right_iff, List.forall₂_same]
    exact fun q _ => passes_passedOn q
  by_cases hcopies : (Producer.ofMethod m t).copies = []
  · obtain ⟨hasked, hcalled⟩ := says_single h hcopies
    exact ⟨rfl, hargs, hasked, hcalled, fun c hc => by simp [hcopies] at hc, absurd hcopies⟩
  · obtain ⟨hasked, hcopied, hfound⟩ := says_copied h hcopies
    refine ⟨rfl, hargs, hasked, hfound.of_append, fun c hc => ⟨?_, hcopied c hc⟩, fun _ => hfound⟩
    unfold Producer.ofMethod at hc
    dsimp only at hc
    split at hc
    · obtain ⟨q, hq, rfl⟩ := List.mem_map.mp hc
      exact ⟨q, List.mem_of_mem_filter hq, rfl⟩
    · simp at hc

end Producers

section Methods

variable {variadicSlices : Bool} {m : Method}

/-- How a value for a parameter stands in the pattern that a helper registers. -/
def intoValue (p : Param) : String := "mock::IntoValue::into_value(" ++ p.name ++ ")"

/-- The line by which a helper registers an expectation of the method `name`. -/
def registration (name args : String) : Code :=
  .line ("self.mock.on(" ++ inQuotes name ++ ", mock::Arguments::" ++ args ++ ")")

/-- The call by which a body asks the mock for the method `name`. -/
def dispatch (name args : String) : String :=
  "self.mock.call(" ++ inQuotes name ++ ", mock::Arguments::" ++ args ++ ");"

/-- What a body does with the parameters of its method. -/
structure Dispatches (variadicSlices : Bool) (m : Method) : Prop where
  /-- Methods are variadic only if this is asked for and their last parameter is a shared slice. -/
  whenVariadic : m.isVariadic = (variadicSlices && Method.endsInSlice m.params)
  /-- The body asks the mock for the method by its name, with what was recorded. -/
  dispatched : ∃ start rest, (MethodBody.ofMethod m).code =
    .line "self.t.helper();" :: Recording.codeOf (MethodBody.ofMethod m).recordings ++
      .line (start ++ dispatch m.name (if m.params.isEmpty then "new()" else "from(_args)")) :: rest
  recorded : ∀ count, RecordsAll count m.params (MethodBody.ofMethod m).recordings (placesOf m count)
  produced : (∀ q ∈ m.params, q.type.hasAbstract = false) →
    List.Forall₂ (fun t p => ∃ f, p.producer = some f ∧ Produces m t p f) m.returns (MethodBody.ofMethod m).positions
  unproduced : (∃ q ∈ m.params, q.type.hasAbstract = true) →
    ∀ p ∈ (MethodBody.ofMethod m).positions, p.producer = none

/-- The helper of a method fits its body. -/
structure LinesUp (variadicSlices : Bool) (m : Method) : Prop extends Dispatches variadicSlices m where
  /-- The helper registers the method by the same name. It takes one value for each parameter; -/
  plain : m.isVariadic = false →
    (Helper.ofMethod m).values = m.params.map (·.name) ∧ (Helper.ofMethod m).elements = none ∧
      (Helper.ofMethod m).body = [registration m.name
        (if m.params.isEmpty then "new()" else "from(vec![" ++ commas (m.params.map intoValue) ++ "])")]
  /-- for the last one of a variadic method, it takes any number of them. -/
  variadic : m.isVariadic = true → ∃ front last t l, m.params = front ++ [last] ∧
    last.type = .reference l false (.slice t) ∧
    (Helper.ofMethod m).values = front.map (·.name) ∧ (Helper.ofMethod m).elements = some last.name ∧
    (Helper.ofMethod m).body = [.line ("let mut _args = vec![" ++ commas (front.map intoValue) ++ "];"),
      .line ("_args.extend(" ++ last.name ++ ");"), registration m.name "from(_args)"]
  /-- The positions that are registered are those that are recorded. -/
  registered : ∀ count, (Helper.ofMethod m).places count = placesOf m count

private theorem isEmpty_recordings (m : Method) : (MethodBody.ofMethod m).recordings.isEmpty = m.params.isEmpty := by
  have hempty : ∀ element? ps, (Recording.ofParams element? ps).isEmpty = ps.isEmpty := by
    intro element? ps
    fun_cases Recording.ofParams element? ps <;> rfl
  exact hempty _ _

theorem dispatched (m : Method) : ∃ start rest, (MethodBody.ofMethod m).code =
    .line "self.t.helper();" :: Recording.codeOf (MethodBody.ofMethod m).recordings ++
      .line (start ++ dispatch m.name (if m.params.isEmpty then "new()" else "from(_args)")) :: rest := by
  have hcall : (MethodBody.ofMethod m).call =
      dispatch m.name (if m.params.isEmpty then "new()" else "from(_args)") := by
    rw [← isEmpty_recordings]
    rfl
  rw [← hcall, MethodBody.code]
  cases (MethodBody.ofMethod m).positions.isEmpty
  · rw [if_neg Bool.false_ne_true, List.append_assoc, List.cons_append]
    exact ⟨"let _rets = ", _, rfl⟩
  · rw [if_pos rfl]
    exact ⟨"", [], by rw [String.empty_append]⟩

theorem helper_of_plain (h : m.isVariadic = false) : Helper.ofMethod m = ⟨m.name, m.params.map (·.name), none⟩ := by
  simp [Helper.ofMethod, h]

theorem helper_of_variadic {front : List Param} {last : Param} (h : m.isVariadic = true)
    (hparams : m.params = front ++ [last]) :
    Helper.ofMethod m = ⟨m.name, front.map (·.name), some last.name⟩ := by
  simp [Helper.ofMethod, h, hparams]

theorem commas_values (ps : List Param) :
    commas ((ps.map (·.name)).map fun x => "mock::IntoValue::into_value(" ++ x ++ ")") =
      commas (ps.map intoValue) := by
  rw [List.map_map]
  rfl

private theorem variadicElement?_of_variadic {front : List Param} {last : Param} {t : SigType} (h : m.isVariadic = true)
    (hparams : m.params = front ++ [last]) (ht : Method.elementOf last.type = some t) :
    m.variadicElement? = some t := by
  simp [Method.variadicElement?, h, hparams, ht]

theorem recorded (h : m.isVariadic = (variadicSlices && Method.endsInSlice m.params)) (count : Nat) :
    RecordsAll count m.params (MethodBody.ofMethod m).recordings (placesOf m count) := by
  have hrecordings : (MethodBody.ofMethod m).recordings = Recording.ofParams m.variadicElement? m.params := rfl
  cases hvariadic : m.isVariadic with
  | false =>
    have hnone : m.variadicElement? = none := by simp [Method.variadicElement?, hvariadic]
    rw [hrecordings, hnone, placesOf, hvariadic]
    exact recordsAll_ofParams_none count m.params
  | true =>
    obtain ⟨front, last, t, hparams, l, htype⟩ := exists_last_of_isVariadic h hvariadic
    have ht : Method.elementOf last.type = some t := by rw [htype, Method.elementOf]
    rw [hrecordings, variadicElement?_of_variadic hvariadic hparams ht, placesOf_of_variadic hvariadic hparams, hparams]
    exact recordsAll_ofParams_some count ht

theorem registered (h : m.isVariadic = (variadicSlices && Method.endsInSlice m.params)) (count : Nat) :
    (Helper.ofMethod m).places count = placesOf m count := by
  cases hvariadic : m.isVariadic with
  | false => simp [helper_of_plain hvariadic, Helper.places, placesOf, hvariadic, Function.comp_def]
  | true =>
    obtain ⟨front, last, t, hparams, l, htype⟩ := exists_last_of_isVariadic h hvariadic
    simp [helper_of_variadic hvariadic hparams, Helper.places, placesOf_of_variadic hvariadic hparams,
      Function.comp_def]

/-- Each value has a function that may produce it, if the types of all parameters can be named. -/
theorem produced_of_forwards (h : m.forwards = true) :
    List.Forall₂ (fun t p => ∃ f, p.producer = some f ∧ Produces m t p f) m.returns
      (MethodBody.ofMethod m).positions := by
  rw [positions_ofMethod, List.forall₂_iff_get]
  refine ⟨by simp, fun i hi hi' => ?_⟩
  have hproducer : ((m.returns.mapIdx fun k t =>
      (⟨k, t.render .kept, if m.forwards then some (.ofMethod m t) else none⟩ : Position)).get ⟨i, hi'⟩).producer =
        some (.ofMethod m (m.returns.get ⟨i, hi⟩)) := by
    simp [h]
  exact ⟨_, hproducer, produces hproducer⟩

private theorem unproduced_of_not_forwards (h : m.forwards = false) :
    ∀ p ∈ (MethodBody.ofMethod m).positions, p.producer = none := by
  intro p hp
  rw [positions_ofMethod] at hp
  obtain ⟨i, hi, rfl⟩ := List.mem_mapIdx.mp hp
  rw [h]
  rfl

private theorem dispatches (h : m.isVariadic = (variadicSlices && Method.endsInSlice m.params)) :
    Dispatches variadicSlices m where
  whenVariadic := h
  dispatched := dispatched m
  recorded := recorded h
  produced hnamed := produced_of_forwards (List.all_eq_true.mpr fun q hq => by simp [hnamed q hq])
  unproduced := by
    rintro ⟨q, hq, habstract⟩
    exact unproduced_of_not_forwards (List.all_eq_false.mpr ⟨q, hq, by simp [habstract]⟩)

private theorem linesUp (h : Dispatches variadicSlices m) : LinesUp variadicSlices m where
  toDispatches := h
  plain hplain := by
    rw [helper_of_plain hplain]
    refine ⟨rfl, rfl, ?_⟩
    rw [Helper.body, commas_values, List.isEmpty_map]
    rfl
  variadic hvariadic := by
    obtain ⟨front, last, t, hparams, l, htype⟩ := exists_last_of_isVariadic h.whenVariadic hvariadic
    refine ⟨front, last, t, l, hparams, htype, ?_⟩
    rw [helper_of_variadic hvariadic hparams]
    refine ⟨rfl, rfl, ?_⟩
    rw [Helper.body, commas_values]
    rfl
  registered := registered h.whenVariadic

/-- Whether a type is a shared reference to a slice. -/
def isSharedSlice : SigType → Bool
  | .reference _ false inner => inner.isSlice
  | _ => false

/-- Whether some parameters end in a shared slice depends on their types only. -/
theorem endsInSlice_eq (ps : List Param) :
    Method.endsInSlice ps = (ps.map (·.type)).getLast?.any isSharedSlice := by
  rw [List.getLast?_map, Method.endsInSlice]
  rcases ps.getLast? with _ | ⟨name, anonymous, t⟩
  · rfl
  · cases t with
    | reference l isMutable inner => cases isMutable <;> rfl
    | _ => rfl

/-- When a trait is accepted, every method has a body that records its parameters and passes them on to the functions
    that may produce its values, whether or not it is variadic. There is one helper for each name: that of the first
    method of this name, which it fits. -/
theorem recordings_of_mock {files : Tree} {src dst : Package} {variadicSlices : Bool} {name : String}
    {r r' : Resolver} {i : Interface} (h : Gives (Interface.ofTrait files src dst variadicSlices name) r i r') :
    (∀ t ∈ i.traits, ∀ m ∈ t.methods, Dispatches variadicSlices (withFreshNames m)) ∧
      (∀ m ∈ i.methods, LinesUp variadicSlices (withFreshNames m)) ∧ ∀ n onHelpers, HoldsMethods n i onHelpers := by
  obtain ⟨w, hmethods⟩ := forall₂_methods h (P := fun _ _ m => Method.IsRead variadicSlices m)
    fun s path decl m hlowered => hlowered.isRead Modules.yields_visible_lowerPathText
  have hbodies : ∀ t ∈ i.traits, ∀ m ∈ t.methods, Dispatches variadicSlices (withFreshNames m) := by
    intro t ht m hm
    obtain ⟨k, s, d, _, hread⟩ := hmethods t ht
    obtain ⟨_, hvariadic, _⟩ := exists_left_of_mem hread hm
    refine dispatches (hvariadic.trans ?_)
    rw [endsInSlice_eq, endsInSlice_eq, types_withFreshNames]
  refine ⟨hbodies, fun m hm => ?_, fun n onHelpers => holdsMethods n i onHelpers⟩
  obtain ⟨t, ht, hmethod⟩ := List.mem_flatMap.mp (List.mem_of_find?_eq_some ((firstOfEach i).first m hm))
  exact linesUp (hbodies t ht m hmethod)

end Methods

section Mailer

/-- Methods with and without a variadic parameter, of which one has a parameter without a type that can be named. -/
def mailer : SampleTrait where
  crateName := "post"
  moduleName := "mailer"
  name := "Mailer"
  text := "trait Mailer \x7b fn send(&self, to: u8, parts: &[u8]) -> (u8, u8); fn flush(&self); " ++
    "fn sort(&self, by: impl Fn()) -> u8; \x7d"

/-- Of each method of a mock, the positions that its helper registers for two elements, and what the functions that may
    produce the returned values are called with. -/
def allRecordings (i : Interface) : List (List Place × List (Option (List String))) :=
  (i.traits.flatMap (·.methods)).map fun m =>
    ((Helper.ofMethod (withFreshNames m)).places 2,
      (MethodBody.ofMethod (withFreshNames m)).positions.map fun p => p.producer.map (·.args))

private theorem exists_mailer : ∃ i r', Gives (mailer.interface true) mailer.resolver i r' ∧
    allRecordings i =
      [([.whole "to", .element "parts" 0, .element "parts" 1], [some ["to", "parts"], some ["to", "parts"]]),
        ([], []), ([.whole "by"], [none])] :=
  exists_gives (by decide +kernel)

theorem recordings_of_mailer : ∃ i r', Gives (mailer.interface true) mailer.resolver i r' ∧
    allRecordings i =
      [([.whole "to", .element "parts" 0, .element "parts" 1], [some ["to", "parts"], some ["to", "parts"]]),
        ([], []), ([.whole "by"], [none])] ∧
    (∀ t ∈ i.traits, ∀ m ∈ t.methods, Dispatches true (withFreshNames m)) ∧
    (∀ m ∈ i.methods, LinesUp true (withFreshNames m)) ∧ HoldsMethods ⟨"MockMailer", "tester"⟩ i true := by
  obtain ⟨i, r', hgives, hmailer⟩ := exists_mailer
  obtain ⟨hdispatches, hlinesUp, hholds⟩ := recordings_of_mock hgives
  exact ⟨i, r', hgives, hmailer, hdispatches, hlinesUp, hholds _ true⟩

end Mailer

section Shelf

/-- A trait that demands another one with a method of the same name. -/
def shelf : SampleTrait where
  crateName := "store"
  moduleName := "shelf"
  name := "Shelf"
  text := "trait Base \x7b fn put(&self, key: u8); \x7d " ++
    "trait Shelf: Base \x7b fn put(&self, key: u8, value: u8); \x7d"

/-- A method with its parameters. -/
def named (m : Method) : String × List String := (m.name, (withFreshNames m).params.map (·.name))

/-- The positions that the helper of a method registers for one element. -/
def registeredPlaces (m : Method) : List Place := (Helper.ofMethod (withFreshNames m)).places 1

private theorem exists_shelf : ∃ i r', Gives (shelf.interface true) shelf.resolver i r' ∧
    (i.traits.map fun t => t.methods.map named, i.methods.map registeredPlaces) =
      ([[("put", ["key", "value"])], [("put", ["key"])]], [[.whole "key", .whole "value"]]) :=
  exists_gives (g := fun i : Interface => (i.traits.map fun t => t.methods.map named, i.methods.map registeredPlaces))
    (by decide +kernel)

/-- Of two methods of one name, the helper of this name registers the positions of the first one. These are not those
    that the second one records. -/
theorem no_helper_fits_put_of_base : ∃ i r', Gives (shelf.interface true) shelf.resolver i r' ∧
    ∃ t ∈ i.traits, ∃ m ∈ t.methods, named m = ("put", ["key"]) ∧
      i.methods.map registeredPlaces = [[.whole "key", .whole "value"]] ∧
      ∀ m' ∈ i.methods, ¬RecordsAll 1 (withFreshNames m).params (MethodBody.ofMethod (withFreshNames m)).recordings
        ((Helper.ofMethod (withFreshNames m')).places 1) := by
  obtain ⟨i, r', hgives, hshelf⟩ := exists_shelf
  obtain ⟨htraits, hhelpers⟩ := Prod.mk.inj hshelf
  have hbase : [("put", ["key"])] ∈ i.traits.map fun t => t.methods.map named := by simp [htraits]
  obtain ⟨t, ht, hmethods⟩ := List.mem_map.mp hbase
  have hput : ("put", ["key"]) ∈ t.methods.map named := by simp [hmethods]
  obtain ⟨m, hm, hnamed⟩ := List.mem_map.mp hput
  refine ⟨i, r', hgives, t, ht, m, hm, hnamed, hhelpers, fun m' hm' hrecords => ?_⟩
  have hplaces : registeredPlaces m' = [.whole "key", .whole "value"] := by
    simpa [hhelpers] using List.mem_map_of_mem (f := registeredPlaces) hm'
  have hparams : (withFreshNames m).params.length = 1 := by
    simpa [named] using congrArg (fun x => x.2.length) hnamed
  have hlength : (registeredPlaces m').length = (withFreshNames m).params.length := hrecords.length_eq
  rw [hplaces, hparams] at hlength
  cases hlength

end Shelf

end TraitMock.Generation
