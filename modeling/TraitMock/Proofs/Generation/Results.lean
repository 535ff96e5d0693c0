import TraitMock.Proofs.Generation.Emission
import TraitMock.Proofs.Naming.Visibility

namespace TraitMock.Generation

open Files (Tree)
open Modules (SeenAs)
open Signature (Mirrors MirrorsTypes SigType)
open Syntax (MethodDecl PathText TypeExpr)

section Shape

variable {R : PathText → String → Prop} {t : TypeExpr} {t' : SigType}

/-- The types of the values that make up a declared result. -/
def valueTypes : TypeExpr → List TypeExpr
  | .tuple elements => elements
  | t => [t]

theorem forall₂_of_mirrorsTypes {ts : List TypeExpr} {ts' : List SigType} (h : MirrorsTypes R ts ts') :
    List.Forall₂ (Mirrors R) ts ts' := by
  induction ts generalizing ts' with
  | nil =>
    cases h
    exact .nil
  | cons t ts ih =>
    cases h with
    | cons hfirst hrest => exact .cons hfirst (ih hrest)

/-- Tuples are lowered to tuples, and nothing else is. -/
theorem tuple_or_not (h : Mirrors R t t') :
    (∃ ts ts', t = .tuple ts ∧ t' = .tuple ts' ∧ List.Forall₂ (Mirrors R) ts ts') ∨
      (∀ ts, t ≠ .tuple ts) ∧ ∀ ts', t' ≠ .tuple ts' := by
  cases h with
  | tuple hts => exact .inl ⟨_, _, rfl, rfl, forall₂_of_mirrorsTypes hts⟩
  | dynamic hbounds => exact .inr ⟨by simp, fun ts' => by split <;> simp⟩
  | sum hl hr => exact .inr ⟨by simp, fun ts' => by split <;> simp⟩
  | _ => exact .inr ⟨by simp, by simp [SigType.named]⟩

/-- The empty tuple is what only the empty tuple is lowered to. -/
theorem isUnit_iff (h : Mirrors R t t') : t'.isUnit = true ↔ t = .tuple [] := by
  rcases tuple_or_not h with ⟨ts, ts', rfl, rfl, htypes⟩ | ⟨hne, hne'⟩
  · cases htypes <;> simp [SigType.isUnit]
  · refine ⟨fun hunit => ?_, fun hts => absurd hts (hne [])⟩
    cases t' with
    | tuple ts' => exact absurd rfl (hne' ts')
    | _ => cases hunit

end Shape

section Positions

variable {m : Method}

private theorem positionsFrom_eq (m : Method) (i : Nat) (types : List SigType) :
    MethodBody.positionsFrom m i types = types.mapIdx fun k t =>
      ⟨i + k, t.render .kept, if m.forwards then some (.ofMethod m t) else none⟩ := by
  induction types generalizing i with
  | nil => rfl
  | cons t rest ih =>
    rw [MethodBody.positionsFrom, ih, List.mapIdx_cons]
    exact congrArg _ (mapIdx_succ (fun k t =>
      (⟨k, t.render .kept, if m.forwards then some (.ofMethod m t) else none⟩ : Position)) i rest).symm

theorem positions_ofMethod (m : Method) : (MethodBody.ofMethod m).positions = m.returns.mapIdx fun k t =>
    ⟨k, t.render .kept, if m.forwards then some (.ofMethod m t) else none⟩ := by
  have hpositions := positionsFrom_eq m 0 m.returns
  simp only [Nat.zero_add] at hpositions
  exact hpositions

theorem index_positions (m : Method) :
    (MethodBody.ofMethod m).positions.map (·.index) = List.range m.returns.length := by
  rw [positions_ofMethod]
  apply List.ext_getElem <;> simp

private theorem type_positions (m : Method) :
    (MethodBody.ofMethod m).positions.map (·.type) = m.returns.map (SigType.render .kept) := by
  rw [positions_ofMethod]
  apply List.ext_getElem <;> simp

/-- The code of a position is one statement, which binds the local of the position to a value of its type: the one that
    was configured for the position, if no function produces it. -/
structure BindsLocal (p : Position) : Prop where
  opens : ∃ value rest, p.code = .line ("let " ++ resultLocal p.index ++ ": " ++ p.type ++ " = " ++ value) :: rest ∧
    ∀ line ∈ Code.linesOf 0 rest, Text.beginsWith line "let " = false
  closes : ∃ front last, Code.linesOf 0 p.code = front ++ [last ++ ";"]
  configured : Code.Says p.code p.configured

@[simp] theorem indented_zero (text : String) : Code.indented 0 text = text := by
  unfold Code.indented
  split <;> simp_all [Text.times]

theorem not_let_indented (text : String) : Text.beginsWith (Code.indented 1 text) "let " = false := by
  unfold Code.indented
  split
  · rfl
  · have hlist : (Text.times 1 "    " ++ text).toList = ' ' :: ' ' :: ' ' :: ' ' :: text.toList := by
      simp [Text.times]
    rw [Text.beginsWith, hlist]
    rfl

theorem linesOf_texts (depth : Nat) (texts : List String) :
    Code.linesOf depth (texts.map .line) = texts.map (Code.indented depth) := by
  induction texts with
  | nil => rfl
  | cons text rest ih => rw [List.map_cons, Code.linesOf, Code.lines, ih, List.map_cons, List.singleton_append]

/-- What the code of a position begins with. -/
def Position.opening (p : Position) : String := "let " ++ resultLocal p.index ++ ": " ++ p.type ++ " = "

/-- The call of the function that produces a value. -/
def Producer.call (f : Producer) : String := "_f(" ++ commas f.args ++ ")"

/-- What asks for a copy of a parameter. -/
def copyText (c : String × String) : String := "mock::try_clone!(&" ++ c.1 ++ ", " ++ c.2 ++ "),"

/-- What binds the function and the copies, if all were found. -/
def Producer.found (f : Producer) : String :=
  "(" ++ commas ("Some(_f)" :: f.copies.map fun c => "Some(" ++ c.1 ++ ")") ++ ") => "

theorem code_of_configured {p : Position} (h : p.producer = none) :
    p.code = [.line (p.opening ++ p.configured ++ ";")] := by
  rw [Position.code, h]
  rfl

theorem code_of_producer {p : Position} {f : Producer} (h : p.producer = some f) (hcopies : f.copies = []) :
    p.code = Code.bracedThen (p.opening ++ "match " ++ p.produced f)
      (["Some(_f) => " ++ f.call ++ ",", "None => " ++ p.configured ++ ","].map .line) ";" := by
  simp only [Position.code, h, hcopies]
  simp [Position.opening, Producer.call, String.append_assoc]

theorem code_of_copies {p : Position} {f : Producer} (h : p.producer = some f) (hcopies : f.copies ≠ []) :
    p.code = .line (p.opening ++ "match (") ::
      .inner (((p.produced f ++ ",") :: f.copies.map copyText).map .line) ::
      Code.bracedThen ")" ([f.found ++ f.call ++ ",", "_ => " ++ p.configured ++ ","].map .line) ";" := by
  have hsome : f.copies.isEmpty = false := List.isEmpty_eq_false_iff.mpr hcopies
  simp only [Position.code, h, hsome, Bool.false_eq_true, if_false, List.map_cons, List.map_map, List.map_nil,
    List.cons_append, List.nil_append]
  rfl

private theorem bindsLocal_of_line {p : Position} (h : p.code = [.line (p.opening ++ p.configured ++ ";")]) :
    BindsLocal p where
  opens := ⟨p.configured ++ ";", [], by simp [h, Position.opening, String.append_assoc], by simp [Code.linesOf]⟩
  closes := ⟨[], p.opening ++ p.configured, by simp [h, Code.linesOf, Code.lines]⟩
  configured := Code.says_of_line p.opening ";" (by simp [h])

/-- A value is chosen by what is asked for in the middle; the last arm takes the one that was configured. -/
theorem bindsLocal_of_match {p : Position} (value : String) (middle : List Code) {arms : List String} (arm : String)
    (hmiddle : ∀ line ∈ Code.linesOf 0 middle, Text.beginsWith line "let " = false)
    (harm : arm ++ p.configured ++ "," ∈ arms)
    (h : p.code = .line (p.opening ++ value) :: middle ++ [.inner (arms.map .line), .line ("\x7d" ++ ";")]) :
    BindsLocal p := by
  have hend : Code.linesOf 0 [.inner (arms.map .line), .line ("\x7d" ++ ";")] =
      arms.map (Code.indented 1) ++ ["\x7d" ++ ";"] := by
    simp only [Code.linesOf, Code.lines, Nat.zero_add, linesOf_texts, indented_zero, List.append_nil]
  refine ⟨⟨value, middle ++ _, h, fun line hline => ?_⟩, ?_, ?_⟩
  · rw [Code.linesOf_append, hend] at hline
    rcases List.mem_append.mp hline with hline | hline
    · exact hmiddle line hline
    · rcases List.mem_append.mp hline with hline | hline
      · obtain ⟨text, _, rfl⟩ := List.mem_map.mp hline
        exact not_let_indented text
      · obtain rfl := List.mem_singleton.mp hline
        rfl
  · rw [h, Code.linesOf_append, hend, ← List.append_assoc]
    exact ⟨_, "\x7d", rfl⟩
  · have hinner : Code.inner (arms.map .line) ∈ p.code := by simp [h]
    exact Code.says_of_inner hinner arm "," (List.mem_map_of_mem harm)

private theorem bindsLocal (p : Position) : BindsLocal p := by
  cases hproducer : p.producer with
  | none => exact bindsLocal_of_line (code_of_configured hproducer)
  | some f =>
    by_cases hcopies : f.copies = []
    · have hcode := code_of_producer hproducer hcopies
      rw [Code.bracedThen, String.append_assoc, String.append_assoc] at hcode
      exact bindsLocal_of_match _ [] "None => " (by simp [Code.linesOf]) (by simp) hcode
    · refine bindsLocal_of_match "match (" [.inner (List.map .line _), .line (")" ++ " \x7b")] "_ => " ?_ (by simp)
        (code_of_copies hproducer hcopies)
      intro line hline
      simp only [Code.linesOf, Code.lines, Nat.zero_add, linesOf_texts, indented_zero, List.append_nil] at hline
      rcases List.mem_append.mp hline with hline | hline
      · obtain ⟨text, _, rfl⟩ := List.mem_map.mp hline
        exact not_let_indented text
      · obtain rfl := List.mem_singleton.mp hline
        rfl

end Positions

section Body

variable {R : PathText → String → Prop} {t : TypeExpr} {t' : SigType} {m : Method}

theorem valueTypes_of_ne (h : ∀ ts, t ≠ .tuple ts) : valueTypes t = [t] := by
  cases t with
  | tuple ts => exact absurd rfl (h ts)
  | _ => rfl

private theorem returns_of_ne (hresult : m.result = some t') (h : ∀ ts, t' ≠ .tuple ts) : m.returns = [t'] := by
  unfold Method.returns
  rw [hresult]
  cases t' with
  | tuple ts => exact absurd rfl (h ts)
  | _ => rfl

/-- The values that a mock returns are those that make up the declared result. -/
theorem forall₂_returns (h : Mirrors R t t') (hresult : m.result = some t') :
    List.Forall₂ (Mirrors R) (valueTypes t) m.returns := by
  rcases tuple_or_not h with ⟨ts, ts', rfl, rfl, htypes⟩ | ⟨hne, hne'⟩
  · have hreturns : m.returns = ts' := by rw [Method.returns, hresult]
    rw [hreturns]
    exact htypes
  · rw [valueTypes_of_ne hne, returns_of_ne hresult hne']
    exact .cons h .nil

private theorem length_pos_valueTypes (h : Mirrors R t t') (hunit : t'.isUnit = false) : 0 < (valueTypes t).length := by
  rcases tuple_or_not h with ⟨ts, ts', rfl, rfl, htypes⟩ | ⟨hne, _⟩
  · rw [valueTypes, htypes.length_eq]
    refine List.length_pos_of_ne_nil fun hnil => ?_
    rw [hnil] at hunit
    cases hunit
  · rw [valueTypes_of_ne hne]
    exact Nat.zero_lt_one

theorem isTupleType_eq (h : Mirrors R t t') : MethodBody.isTupleType (some t') = true ↔ ∃ ts, t = .tuple ts := by
  rcases tuple_or_not h with ⟨ts, ts', rfl, rfl, _⟩ | ⟨hne, hne'⟩
  · exact ⟨fun _ => ⟨ts, rfl⟩, fun _ => rfl⟩
  · refine ⟨fun htuple => ?_, fun ⟨ts, hts⟩ => absurd hts (hne ts)⟩
    cases t' with
    | tuple ts' => exact absurd rfl (hne' ts')
    | _ => cases htuple

/-- The locals of so many positions. -/
def resultLocals (n : Nat) : List String := (List.range n).map resultLocal

/-- What the body of a method does for the declared result `t`, which is not the empty tuple. -/
structure HandsOut (R : PathText → String → Prop) (t : TypeExpr) (m : Method) : Prop where
  declared : ∃ t', m.result = some t' ∧ Mirrors R t t'
  /-- There is a position for each value, in their order and with its type. -/
  counted : (MethodBody.ofMethod m).positions.map (·.index) = List.range (valueTypes t).length
  typed : List.Forall₂ (fun t p => ∃ t', Mirrors R t t' ∧ p.type = t'.render .kept) (valueTypes t)
    (MethodBody.ofMethod m).positions
  /-- The mock has to return as many values; then each is bound, and the result follows. -/
  code : (MethodBody.ofMethod m).code =
    .line "self.t.helper();" :: Recording.codeOf (MethodBody.ofMethod m).recordings ++
      .line ("let _rets = " ++ (MethodBody.ofMethod m).call) ::
        Code.braced ("if _rets.len() != " ++ toString (valueTypes t).length)
          [.line ("self.t.fatal(" ++ inQuotes MethodBody.countMismatch ++ ");")] ++
        (MethodBody.ofMethod m).positions.flatMap Position.code ++ [.line (MethodBody.ofMethod m).result]
  bound : ∀ p ∈ (MethodBody.ofMethod m).positions, BindsLocal p
  /-- The result is a tuple of the locals, unless the declared one is a tuple of one element. -/
  tuple : ∀ ts, t = .tuple ts →
    ((MethodBody.ofMethod m).result = "(" ++ Signature.tupleText (resultLocals ts.length) ++ ")" ↔ ts.length ≠ 1) ∧
      (ts.length = 1 → (MethodBody.ofMethod m).result = "(" ++ resultLocal 0 ++ ")")
  single : (∀ ts, t ≠ .tuple ts) → (MethodBody.ofMethod m).result = resultLocal 0

theorem result_ofMethod (m : Method) : (MethodBody.ofMethod m).result =
    if MethodBody.isTupleType m.result then "(" ++ commas (resultLocals m.returns.length) ++ ")"
    else commas (resultLocals m.returns.length) := by
  have hlocals : (MethodBody.ofMethod m).positions.map (fun p => resultLocal p.index) =
      resultLocals m.returns.length := by
    rw [resultLocals, ← index_positions, List.map_map]
    rfl
  rw [MethodBody.result, hlocals]
  rfl

private theorem handsOut (h : Mirrors R t t') (hresult : m.result = some t') (hunit : t'.isUnit = false) :
    HandsOut R t m := by
  have hreturns := forall₂_returns h hresult
  have hlength : m.returns.length = (valueTypes t).length := hreturns.length_eq.symm
  have hcount : (MethodBody.ofMethod m).positions.length = (valueTypes t).length := by
    rw [← hlength, positions_ofMethod, List.length_mapIdx]
  refine ⟨⟨t', hresult, h⟩, by rw [index_positions, hlength], ?_, ?_, fun p _ => bindsLocal p, ?_, ?_⟩
  · have hrendered : List.Forall₂ (fun t text => ∃ t', Mirrors R t t' ∧ text = t'.render .kept) (valueTypes t)
        ((MethodBody.ofMethod m).positions.map (·.type)) := by
      rw [type_positions, List.forall₂_map_right_iff]
      exact hreturns.imp fun _ t' ht' => ⟨t', ht', rfl⟩
    exact List.forall₂_map_right_iff.mp hrendered
  · have hsome : (MethodBody.ofMethod m).positions.isEmpty = false := by
      have hpos := length_pos_valueTypes h hunit
      rw [List.isEmpty_eq_false_iff]
      exact List.ne_nil_of_length_pos (hcount ▸ hpos)
    unfold MethodBody.code
    rw [hsome, hcount]
    simp
  · rintro ts rfl
    have htuple : MethodBody.isTupleType m.result = true := by
      rw [hresult, isTupleType_eq h]
      exact ⟨ts, rfl⟩
    rw [result_ofMethod, if_pos htuple, hlength, valueTypes]
    by_cases hone : ts.length = 1
    · rw [hone]
      exact ⟨iff_of_false (by decide) (by simp), fun _ => rfl⟩
    · simp [Signature.tupleText, resultLocals, commas, hone]
  · intro hne
    have hnot : ¬MethodBody.isTupleType m.result = true := by
      rw [hresult, isTupleType_eq h]
      rintro ⟨ts, hts⟩
      exact hne ts hts
    rw [result_ofMethod, if_neg hnot, hlength, valueTypes_of_ne hne]
    rfl

end Body

section Methods

variable {R : PathText → String → Prop} {decl : MethodDecl} {m : Method}

/-- The body of a method against the result that is declared. -/
structure ReturnsDeclared (R : PathText → String → Prop) (decl : MethodDecl) (m : Method) : Prop where
  nothing : decl.result = none ∨ decl.result = some (.tuple []) →
    m.result = none ∧ (MethodBody.ofMethod m).positions = [] ∧
      (MethodBody.ofMethod m).code = .line "self.t.helper();" ::
        Recording.codeOf (MethodBody.ofMethod m).recordings ++ [.line (MethodBody.ofMethod m).call]
  values : ∀ t, decl.result = some t → t ≠ .tuple [] → HandsOut R t m

theorem code_of_result_eq_none (h : m.result = none) : (MethodBody.ofMethod m).positions = [] ∧
    (MethodBody.ofMethod m).code = .line "self.t.helper();" ::
      Recording.codeOf (MethodBody.ofMethod m).recordings ++ [.line (MethodBody.ofMethod m).call] := by
  have hpositions : (MethodBody.ofMethod m).positions = [] := by
    rw [positions_ofMethod, Method.returns, h]
    rfl
  refine ⟨hpositions, ?_⟩
  rw [MethodBody.code, hpositions]
  rfl

private theorem returnsDeclared (hreturn : Method.MirrorsReturn R decl.result m.result)
    (hunit : ∀ t', m.result = some t' → t'.isUnit = false) : ReturnsDeclared R decl m := by
  generalize hdecl : decl.result = declared? at hreturn
  generalize hresult : m.result = result? at hreturn
  refine ⟨fun hempty => ?_, fun t ht hne => ?_⟩
  · cases hreturn with
    | none => exact ⟨hresult, code_of_result_eq_none hresult⟩
    | unit => exact ⟨hresult, code_of_result_eq_none hresult⟩
    | some htype =>
      have hnot := hunit _ hresult
      rw [hdecl] at hempty
      rcases hempty with hempty | hempty
      · cases hempty
      · rw [(isUnit_iff htype).mpr (Option.some.inj hempty)] at hnot
        cases hnot
  · rw [hdecl] at ht
    cases hreturn with
    | none => cases ht
    | unit htype hempty =>
      obtain rfl := Option.some.inj ht
      exact absurd ((isUnit_iff htype).mp hempty) hne
    | some htype =>
      obtain rfl := Option.some.inj ht
      exact handsOut htype hresult (hunit _ hresult)

/-- When a trait is accepted, the body of each method of its mock returns what is declared: it checks that there is a
    value for each position, binds each to a local of its type, and its result is made of these locals. It is the tuple
    of them where the declared result is a tuple of two elements or more. -/
theorem results_of_mock {files : Tree} {src dst : Package} {variadicSlices : Bool} {name : String}
    {r r' : Resolver} {i : Interface} (h : Gives (Interface.ofTrait files src dst variadicSlices name) r i r') :
    (∃ w, ∀ t ∈ i.traits, ∃ k s d, IsListed files src dst variadicSlices w r' k t s d ∧
      List.Forall₂ (fun decl m => ReturnsDeclared (SeenAs s dst i.imports.toList) decl (withFreshNames m))
        (d.members.filterMap Walking.declared?) t.methods) ∧
    ∀ n onHelpers, HoldsMethods n i onHelpers := by
  refine ⟨forall₂_methods h fun s path decl m hlowered => ?_, fun n onHelpers => holdsMethods n i onHelpers⟩
  have hmirrors := hlowered.mirrors Modules.yields_visible_lowerPathText
  have hread := hlowered.isRead Modules.yields_visible_lowerPathText
  exact returnsDeclared hmirrors.result hread.result

end Methods

section Purse

/-- Methods with a tuple of one element, one of two, and one in parentheses. -/
def purse : SampleTrait where
  crateName := "shop"
  moduleName := "purse"
  name := "Purse"
  text := "trait Purse \x7b fn coin(&self) -> (i32,); fn pair(&self, key: String) -> (i32, u8); " ++
    "fn notes(&self) -> ((i32, u8)); \x7d"

/-- Whether the methods of a mock return tuples, of how many positions, and what their bodies end with. -/
def allResults (i : Interface) : List (Bool × Nat × String) :=
  (i.traits.flatMap (·.methods)).map fun m =>
    ((MethodBody.ofMethod (withFreshNames m)).isTuple, m.returns.length,
      (MethodBody.ofMethod (withFreshNames m)).result)

theorem exists_purse : ∃ i r', Gives (purse.interface false) purse.resolver i r' ∧
    (i.traits.length, allResults i) =
      (1, [(true, 1, "(_r0)"), (true, 2, "(_r0, _r1)"), (false, 1, "_r0")]) :=
  exists_gives (by decide +kernel)

theorem results_of_purse :
    ∃ i r' w t k s d, Gives (purse.interface false) purse.resolver i r' ∧ t ∈ i.traits ∧
      allResults i = [(true, 1, "(_r0)"), (true, 2, "(_r0, _r1)"), (false, 1, "_r0")] ∧
      IsListed purse.files purse.home purse.root false w r' k t s d ∧
      List.Forall₂ (fun decl m => ReturnsDeclared (SeenAs s purse.root i.imports.toList) decl (withFreshNames m))
        (d.members.filterMap Walking.declared?) t.methods ∧
      HoldsMethods ⟨"MockPurse", "tester"⟩ i true := by
  obtain ⟨i, r', hgives, hpurse⟩ := exists_purse
  obtain ⟨htraits, hresults⟩ := Prod.mk.inj hpurse
  obtain ⟨⟨w, hreturns⟩, hholds⟩ := results_of_mock hgives
  obtain ⟨t, ht⟩ := List.exists_mem_of_length_pos (Nat.lt_of_lt_of_eq Nat.zero_lt_one htraits.symm)
  obtain ⟨k, s, d, hlisted, hmethods⟩ := hreturns t ht
  exact ⟨i, r', w, t, k, s, d, hgives, ht, hresults, hlisted, hmethods, hholds _ true⟩

/-- The local in parentheses is not the tuple of one element that this mock has to return. -/
theorem coin_is_no_tuple :
    ¬∀ (files : Tree) (src dst : Package) (variadicSlices : Bool) (name : String) (r r' : Resolver) (i : Interface),
      Gives (Interface.ofTrait files src dst variadicSlices name) r i r' →
        ∀ t ∈ i.traits, ∀ m ∈ t.methods, ∀ types, m.result = some (.tuple types) →
          (MethodBody.ofMethod (withFreshNames m)).result =
            "(" ++ Signature.tupleText (resultLocals types.length) ++ ")" := by
  intro hall
  obtain ⟨i, r', hgives, hpurse⟩ := exists_purse
  obtain ⟨_, hresults⟩ := Prod.mk.inj hpurse
  have hcoin : (true, 1, "(_r0)") ∈ allResults i := by simp [hresults]
  obtain ⟨m, hm, hcoin⟩ := List.mem_map.mp hcoin
  obtain ⟨htuple, hrest⟩ := Prod.mk.inj hcoin
  obtain ⟨hlength, hresult⟩ := Prod.mk.inj hrest
  replace htuple : MethodBody.isTupleType m.result = true := htuple
  obtain ⟨t, ht, hmt⟩ := List.mem_flatMap.mp hm
  obtain ⟨types, htypes⟩ : ∃ types, m.result = some (.tuple types) := by
    unfold MethodBody.isTupleType at htuple
    split at htuple
    · rename_i types heq
      exact ⟨types, heq⟩
    · cases htuple
  have hone : types.length = 1 := by rwa [Method.returns, htypes] at hlength
  have hwanted := hall _ _ _ _ _ _ _ _ hgives t ht m hmt types htypes
  rw [hresult, hone] at hwanted
  exact absurd hwanted (by decide)

end Purse

end TraitMock.Generation
