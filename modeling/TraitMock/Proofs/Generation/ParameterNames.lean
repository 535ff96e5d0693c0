import Mathlib.Data.List.Nodup
import TraitMock.Proofs.Generation.Emission
import TraitMock.Proofs.Generation.OwnImports
import TraitMock.Proofs.Naming.Visibility
import TraitMock.Proofs.Syntax.Lexemes

namespace TraitMock.Generation

open Files (Tree)
open Modules (SeenAs)
open Signature (Mirrors)
open Syntax (MethodDecl ParamDecl PathText TypeExpr)

section Fresh

/-- The name that is made up for the parameter at a position. -/
def madeUpName (i : Nat) : String := "_a" ++ toString i

/-- The names that a parameter at a position may get, one after the other. -/
def freshCandidate (i n : Nat) : String := madeUpName i ++ Text.times n "_"

private theorem toList_times (n : Nat) (c : Char) : (Text.times n c.toString).toList = List.replicate n c := by
  induction n with
  | zero => rfl
  | succ n ih =>
    rw [Text.times] at ih ⊢
    rw [List.replicate_succ, String.join_cons, String.toList_append, ih, List.replicate_succ]
    simp

theorem toList_freshCandidate (i n : Nat) :
    (freshCandidate i n).toList = '_' :: 'a' :: (Nat.toDigits 10 i ++ List.replicate n '_') := by
  have htail : (Text.times n "_").toList = List.replicate n '_' := toList_times n '_'
  simp [freshCandidate, madeUpName, htail]

theorem freshCandidate_zero (i : Nat) : freshCandidate i 0 = madeUpName i := by
  simp [freshCandidate, Text.times]

theorem isDigit_toDigits (i : Nat) : ∀ c ∈ Nat.toDigits 10 i, c.isDigit = true := fun _ hc =>
  Nat.isDigit_of_mem_toDigits (by decide) (by decide) hc

/-- The position can be read off a name: it is the number behind `_a`. -/
theorem eq_of_freshCandidate_eq {i j n k : Nat} (h : freshCandidate i n = freshCandidate j k) : i = j := by
  have hdigits : ∀ i n, (Nat.toDigits 10 i ++ List.replicate n '_').takeWhile Char.isDigit = Nat.toDigits 10 i := by
    intro i n
    rw [List.takeWhile_append_of_pos (isDigit_toDigits i)]
    cases n <;> simp [List.replicate_succ, show Char.isDigit '_' = false by decide]
  have hlists := congrArg String.toList h
  rw [toList_freshCandidate, toList_freshCandidate] at hlists
  have htails := (List.cons.inj (List.cons.inj hlists).2).2
  have hsame : Nat.toDigits 10 i = Nat.toDigits 10 j := by rw [← hdigits i n, htails, hdigits]
  rw [← Nat.ofDigitChars_ten_toDigits (n := i), hsame, Nat.ofDigitChars_ten_toDigits]

private theorem freshCandidate_injective (i : Nat) : Function.Injective (freshCandidate i) := by
  intro n k h
  have hlengths := congrArg (fun s : String => s.toList.length) h
  simp only [toList_freshCandidate, List.length_cons, List.length_append, List.length_replicate] at hlengths
  omega

/-- No local is called `_a` with a digit behind it. -/
theorem clashes_freshCandidate (i n : Nat) : clashes (freshCandidate i n) = false := by
  obtain ⟨c, rest, hdigits⟩ := List.exists_cons_of_ne_nil
    (List.ne_nil_of_length_pos (Nat.length_toDigits_pos (b := 10) (n := i)))
  have hc : c.isDigit = true := isDigit_toDigits i c (by simp [hdigits])
  have hlist : (freshCandidate i n).toList = '_' :: 'a' :: c :: (rest ++ List.replicate n '_') := by
    rw [toList_freshCandidate, hdigits]
    rfl
  have hlocals : freshCandidate i n ∉ bodyLocals := by
    have hthird : ∀ name ∈ bodyLocals, name.toList[1]? = some 'a' → name.toList[2]?.any Char.isDigit = false := by
      decide
    intro hmem
    have hnot := hthird _ hmem (by simp [hlist])
    simp [hlist, hc] at hnot
  have hresult : looksLikeResultLocal (freshCandidate i n) = false := by
    rw [looksLikeResultLocal, hlist]
    rfl
  simp [clashes, hlocals, hresult]

/-- The name given in the place of another one is not taken. Of one more candidate than there are names, one is free. -/
theorem exists_freshName (taken : List String) (i : Nat) :
    ∃ n, freshName taken i = freshCandidate i n ∧ freshCandidate i n ∉ taken := by
  have hfree : ∃ n ∈ List.range (taken.length + 1), freshCandidate i n ∉ taken := by
    by_contra hall
    push Not at hall
    have hsub : (List.range (taken.length + 1)).map (freshCandidate i) ⊆ taken := fun name hname => by
      obtain ⟨n, hn, rfl⟩ := List.mem_map.mp hname
      exact hall n hn
    have hnodup := List.Nodup.map (freshCandidate_injective i) (List.nodup_range (n := taken.length + 1))
    have hle := (hnodup.subperm hsub).length_le
    simp at hle
  have hdef : freshName taken i =
      (((List.range (taken.length + 1)).map (freshCandidate i)).find? fun name => !taken.contains name).getD "" := rfl
  obtain ⟨n, hn, hnot⟩ := hfree
  cases hfind : ((List.range (taken.length + 1)).map (freshCandidate i)).find? fun name => !taken.contains name with
  | none =>
    have htaken := List.find?_eq_none.mp hfind (freshCandidate i n) (List.mem_map_of_mem hn)
    simp [hnot] at htaken
  | some name =>
    obtain ⟨k, _, rfl⟩ := List.mem_map.mp (List.mem_of_find?_eq_some hfind)
    exact ⟨k, by rw [hdef, hfind, Option.getD_some], by simpa using List.find?_some hfind⟩

end Fresh

section Emitted

/-- The name of the parameter at a position in generated code, if its trait gives it the name `given?` and the names in
    `taken` are those that all parameters of the method have been read with. -/
def emittedName (taken : List String) (i : Nat) (given? : Option String) : String :=
  match given? with
  | none => madeUpName i
  | some s => if clashes s then freshName taken i else s

/-- The name that a trait gives, if generated code keeps it. -/
def keptName? (given? : Option String) : Option String := given?.filter fun s => !clashes s

variable {taken : List String} {i j : Nat} {given? other? : Option String}

theorem clashes_madeUpName (i : Nat) : clashes (madeUpName i) = false := by
  rw [← freshCandidate_zero]
  exact clashes_freshCandidate i 0

private theorem madeUpName_inj : madeUpName i = madeUpName j ↔ i = j := by
  refine ⟨fun h => ?_, fun h => h ▸ rfl⟩
  rw [← freshCandidate_zero, ← freshCandidate_zero] at h
  exact eq_of_freshCandidate_eq h

private theorem freshName_inj : freshName taken i = freshName taken j ↔ i = j := by
  refine ⟨fun h => ?_, fun h => h ▸ rfl⟩
  obtain ⟨n, hi, _⟩ := exists_freshName taken i
  obtain ⟨k, hj, _⟩ := exists_freshName taken j
  exact eq_of_freshCandidate_eq (hi.symm.trans (h.trans hj))

theorem freshName_ne {s : String} (hs : s ∈ taken) : freshName taken i ≠ s := by
  obtain ⟨n, hname, hnot⟩ := exists_freshName taken i
  rw [hname]
  rintro rfl
  exact hnot hs

private theorem clashes_emittedName (taken : List String) (i : Nat) (given? : Option String) :
    clashes (emittedName taken i given?) = false := by
  cases given? with
  | none => exact clashes_madeUpName i
  | some s =>
    by_cases hs : clashes s = true
    · obtain ⟨n, hname, _⟩ := exists_freshName taken i
      rw [emittedName, if_pos hs, hname]
      exact clashes_freshCandidate i n
    · rw [emittedName, if_neg hs]
      simpa using hs

private theorem ne_local_of_clashes {name : String} (h : clashes name = false) :
    name ∉ bodyLocals ∧ ∀ i, name ≠ resultLocal i := by
  obtain ⟨hlocals, hresult⟩ : name ∉ bodyLocals ∧ looksLikeResultLocal name = false := by simpa [clashes] using h
  refine ⟨hlocals, ?_⟩
  rintro i rfl
  have hlist : (resultLocal i).toList = '_' :: 'r' :: Nat.toDigits 10 i := by simp [resultLocal]
  have hlooks : looksLikeResultLocal (resultLocal i) = (Nat.toDigits 10 i).all Char.isDigit := by
    rw [looksLikeResultLocal, hlist]
    rfl
  rw [hlooks, List.all_eq_true.mpr (isDigit_toDigits i)] at hresult
  cases hresult

/-- A name with the mark of a raw one is one that the trait gives. -/
theorem given_of_raw (h : Text.beginsWith (emittedName taken i given?) "r#" = true) :
    given? = some (emittedName taken i given?) := by
  have hfresh : ∀ n, Text.beginsWith (freshCandidate i n) "r#" = false := fun n => by
    rw [Text.beginsWith, toList_freshCandidate]
    rfl
  cases given? with
  | none =>
    rw [emittedName, ← freshCandidate_zero, hfresh] at h
    cases h
  | some s =>
    by_cases hs : clashes s = true
    · obtain ⟨n, hname, _⟩ := exists_freshName taken i
      rw [emittedName, if_pos hs, hname, hfresh] at h
      cases h
    · rw [emittedName, if_neg hs]

/-- Two parameters of a method are named alike exactly when the name that is made up for one of them is given to the
    other, or both keep the same name. -/
theorem emittedName_ne_iff (hij : i ≠ j) (hi : given?.getD (madeUpName i) ∈ taken)
    (hj : other?.getD (madeUpName j) ∈ taken) :
    emittedName taken i given? ≠ emittedName taken j other? ↔
      (given? = none → other? ≠ some (madeUpName i)) ∧ (other? = none → given? ≠ some (madeUpName j)) ∧
        ∀ s, keptName? given? = some s → ∀ s', keptName? other? = some s' → s ≠ s' := by
  cases given? with
  | none =>
    cases other? with
    | none => simp [emittedName, madeUpName_inj, hij, keptName?]
    | some s =>
      by_cases hs : clashes s = true
      · have hne : s ≠ madeUpName i := fun heq => by simp [heq, clashes_madeUpName] at hs
        simpa [emittedName, hs, hne, keptName?] using (freshName_ne (i := j) hi).symm
      · simp [emittedName, hs, keptName?, eq_comm]
  | some s =>
    by_cases hs : clashes s = true
    · cases other? with
      | none =>
        have hne : s ≠ madeUpName j := fun heq => by simp [heq, clashes_madeUpName] at hs
        simpa [emittedName, hs, hne, keptName?] using freshName_ne (i := i) hj
      | some s' =>
        by_cases hs' : clashes s' = true
        · simp [emittedName, hs, hs', freshName_inj, hij, keptName?]
        · simpa [emittedName, hs, hs', keptName?] using freshName_ne (i := i) hj
    · cases other? with
      | none => simp [emittedName, hs, keptName?]
      | some s' =>
        by_cases hs' : clashes s' = true
        · simpa [emittedName, hs, hs', keptName?] using (freshName_ne (i := j) hi).symm
        · simp [emittedName, hs, hs', keptName?]

/-- The names that the parameters of a method are read with, of which some are given. -/
def readNames (given : List (Option String)) : List String := given.mapIdx fun i g => g.getD (madeUpName i)

/-- The names of the parameters of a method in generated code. -/
def emittedNames (given : List (Option String)) : List String := given.mapIdx (emittedName (readNames given))

private theorem nodup_emittedNames_iff (given : List (Option String)) :
    (emittedNames given).Nodup ↔ (given.filterMap keptName?).Nodup ∧
      ∀ j, given[j]? = some none → some (madeUpName j) ∉ given := by
  have hread : ∀ i (hi : i < given.length), given[i].getD (madeUpName i) ∈ readNames given := fun i hi =>
    List.mem_iff_getElem.mpr ⟨i, by simpa [readNames] using hi, by simp [readNames]⟩
  have hpairs : (emittedNames given).Nodup ↔ ∀ i j (hi : i < given.length) (hj : j < given.length), i < j →
      (given[i] = none → given[j] ≠ some (madeUpName i)) ∧ (given[j] = none → given[i] ≠ some (madeUpName j)) ∧
        ∀ s, keptName? given[i] = some s → ∀ s', keptName? given[j] = some s' → s ≠ s' := by
    rw [List.Nodup, List.pairwise_iff_getElem]
    simp only [emittedNames, List.length_mapIdx, List.getElem_mapIdx]
    refine forall₄_congr fun i j hi hj => forall_congr' fun hlt => ?_
    exact emittedName_ne_iff (Nat.ne_of_lt hlt) (hread i hi) (hread j hj)
  rw [hpairs, List.Nodup, List.pairwise_filterMap, List.pairwise_iff_getElem]
  constructor
  · intro h
    refine ⟨fun i j hi hj hlt => (h i j hi hj hlt).2.2, fun j hnone hmem => ?_⟩
    obtain ⟨hj, hjnone⟩ := List.getElem?_eq_some_iff.mp hnone
    obtain ⟨k, hk, hkgiven⟩ := List.mem_iff_getElem.mp hmem
    rcases Nat.lt_trichotomy j k with hlt | rfl | hlt
    · exact (h j k hj hk hlt).1 hjnone hkgiven
    · rw [hjnone] at hkgiven
      cases hkgiven
    · exact (h k j hk hj hlt).2.1 hjnone hkgiven
  · rintro ⟨hkept, hmadeUp⟩ i j hi hj hlt
    refine ⟨fun hnone hgiven => ?_, fun hnone hgiven => ?_, hkept i j hi hj hlt⟩
    · exact hmadeUp i (List.getElem?_eq_some_iff.mpr ⟨hi, hnone⟩) (hgiven ▸ List.getElem_mem hj)
    · exact hmadeUp j (List.getElem?_eq_some_iff.mpr ⟨hj, hnone⟩) (hgiven ▸ List.getElem_mem hi)

end Emitted

section Declared

variable {R : PathText → String → Prop}

/-- The parameters that a declaration has besides the one that the method is called by: their names, if they are given
    one, and their types. `isFirst` says that there is none in front of them. -/
def declaredParams (isFirst : Bool) : List ParamDecl → List (Option String × TypeExpr)
  | [] => []
  | .receiver _ :: rest => declaredParams false rest
  | .variadic :: rest => declaredParams false rest
  | .bare t :: rest => (none, t) :: declaredParams false rest
  | .typed pattern t _ :: rest =>
    if isFirst && Method.isSelf pattern then declaredParams false rest
    else (Method.nameOf pattern, t) :: declaredParams false rest

/-- Behind the parameters `ps` so far, those of a declaration are read with the types that are declared and with the
    names that are given, and those that have no name are numbered. -/
def ReadsParams (R : PathText → String → Prop) (ps ps' : Method.Params) (ds : List (Option String × TypeExpr)) : Prop :=
  ∃ new, ps'.others = ps.others ++ new ∧ List.Forall₂ (fun d p => Mirrors R d.2 p.type) ds new ∧
    new.map (·.name) = ds.mapIdx fun k d => d.1.getD (madeUpName (ps.others.length + k))

theorem ReadsParams.cons {ps ps' : Method.Params} {ds : List (Option String × TypeExpr)} {name : Option String}
    {t : TypeExpr} {t' : Signature.SigType} (htype : Mirrors R t t') (h : ReadsParams R (ps.add name t') ps' ds) :
    ReadsParams R ps ps' ((name, t) :: ds) := by
  obtain ⟨new, hothers, htypes, hnames⟩ := h
  refine ⟨⟨name.getD (madeUpName ps.others.length), name.isNone, t'⟩ :: new, ?_, .cons htype htypes, ?_⟩
  · simp [hothers, Method.Params.add, madeUpName]
  · have hlength : (ps.add name t').others.length = ps.others.length + 1 := by simp [Method.Params.add]
    rw [List.map_cons, hnames, List.mapIdx_cons, hlength]
    simp [Nat.add_assoc, Nat.add_comm 1]

private theorem readsParams {ps ps' : Method.Params} {decls : List ParamDecl} (h : Method.MirrorsParams R ps decls ps') :
    ReadsParams R ps ps' (declaredParams (ps.receiver.isNone && ps.others.isEmpty) decls) := by
  have hadded : ∀ ps : Method.Params, ∀ name t,
      ((ps.add name t).receiver.isNone && (ps.add name t).others.isEmpty) = false := by
    intro ps name t
    simp [Method.Params.add]
  induction h with
  | nil ps => exact ⟨[], by simp, .nil, rfl⟩
  | receiver text hrest ih =>
    rw [declaredParams]
    exact ih
  | @typedReceiver ps _ _ pattern t text hself _ ih =>
    rw [declaredParams, if_pos (by rwa [Bool.and_comm, ← Bool.and_assoc])]
    exact ih
  | @typed ps _ _ pattern t _ text hself htype _ ih =>
    rw [declaredParams, if_neg (by rwa [Bool.and_comm, ← Bool.and_assoc])]
    rw [hadded] at ih
    exact ih.cons htype
  | bare htype _ ih =>
    rw [hadded] at ih
    exact ih.cons htype

/-- Renaming keeps the types of parameters, and their names as far as these are kept. -/
theorem emitted_renameFrom (taken : List String) {ds : List (Option String × TypeExpr)} {ps : List Param} {i : Nat}
    (htypes : List.Forall₂ (fun d p => Mirrors R d.2 p.type) ds ps)
    (hnames : ps.map (·.name) = ds.mapIdx fun k d => d.1.getD (madeUpName (i + k))) :
    List.Forall₂ (fun d p => Mirrors R d.2 p.type ∧ ∀ s, keptName? d.1 = some s → p.name = s) ds
        (renameFrom taken i ps) ∧
      (renameFrom taken i ps).map (·.name) = ds.mapIdx fun k d => emittedName taken (i + k) d.1 := by
  induction htypes generalizing i with
  | nil => exact ⟨.nil, rfl⟩
  | @cons d p ds ps htype _ ih =>
    rw [List.map_cons, List.mapIdx_cons, List.cons.injEq] at hnames
    obtain ⟨hname, hrest⟩ := hnames
    obtain ⟨hforall, hmapped⟩ := ih (hrest.trans (mapIdx_succ (fun k d => d.1.getD (madeUpName k)) i ds))
    have hfirst : (if clashes p.name then { p with name := freshName taken i } else p).name =
        emittedName taken i d.1 := by
      rw [Nat.add_zero] at hname
      rcases d with ⟨given?, t⟩
      cases given? with
      | none =>
        have hmade : p.name = madeUpName i := hname
        rw [hmade, if_neg (by simp [clashes_madeUpName]), hmade, emittedName]
      | some s =>
        have hgiven : p.name = s := hname
        rw [hgiven, emittedName]
        split
        · rfl
        · exact hgiven
    refine ⟨.cons ⟨?_, fun s hs => ?_⟩ hforall, ?_⟩
    · split <;> exact htype
    · rw [hfirst]
      obtain ⟨hgiven, hkept⟩ := Option.filter_eq_some_iff.mp hs
      simp [hgiven, emittedName, show clashes s = false by simpa using hkept]
    · rw [renameFrom, List.map_cons, hfirst, hmapped, List.mapIdx_cons]
      exact congrArg _ (mapIdx_succ (fun k d => emittedName taken k d.1) i ds).symm

end Declared

section Methods

/-- The names of the parameters of a helper are those of its method. -/
theorem names_ofMethod (m : Method) :
    (Helper.ofMethod m).values ++ (Helper.ofMethod m).elements.toList = m.params.map (·.name) := by
  have hsplit : ∀ names : List String, names.dropLast ++ names.getLast?.toList = names := fun names => by
    rcases List.eq_nil_or_concat names with rfl | ⟨front, last, rfl⟩ <;> simp
  unfold Helper.ofMethod
  dsimp only
  split
  · exact hsplit _
  · simp

/-- The names that a declaration gives to its parameters. -/
def givenNames (decl : MethodDecl) : List (Option String) := (declaredParams true decl.params).map (·.1)

/-- The parameters of a method in the code of a mock against those of its declaration. -/
structure NamesParams (R : PathText → String → Prop) (decl : MethodDecl) (m : Method) : Prop where
  /-- Each declared parameter has its parameter, with its type and, as far as it is kept, with its name. -/
  inOrder : List.Forall₂ (fun d p => Mirrors R d.2 p.type ∧ ∀ s, keptName? d.1 = some s → p.name = s)
    (declaredParams true decl.params) (withFreshNames m).params
  /-- No parameter is called like a local. -/
  apart : ∀ p ∈ (withFreshNames m).params, p.name ∉ bodyLocals ∧ ∀ i, p.name ≠ resultLocal i
  /-- They are called differently exactly when the trait does not give two of them the same name that is kept, nor gives
      one of them a name that is made up for another. -/
  distinct : ((withFreshNames m).params.map (·.name)).Nodup ↔
    ((givenNames decl).filterMap keptName?).Nodup ∧
      ∀ j, (givenNames decl)[j]? = some none → some (madeUpName j) ∉ givenNames decl
  /-- The mark of raw names comes from the trait. -/
  raw : ∀ p ∈ (withFreshNames m).params, Text.beginsWith p.name "r#" = true → some p.name ∈ givenNames decl
  /-- The helper names its parameters in the same way. -/
  helper : (Helper.ofMethod (withFreshNames m)).values ++ (Helper.ofMethod (withFreshNames m)).elements.toList =
    (withFreshNames m).params.map (·.name)

theorem mapIdx_givenNames {β : Type} (decl : MethodDecl) (f : Nat → Option String → β) :
    (givenNames decl).mapIdx f = (declaredParams true decl.params).mapIdx fun i d => f i d.1 := by
  apply List.ext_getElem <;> simp [givenNames]

private theorem namesParams {R : PathText → String → Prop} {decl : MethodDecl} {m : Method}
    (h : Method.MirrorsDecl R decl m) : NamesParams R decl m := by
  obtain ⟨ps, hparams, _, hothers⟩ := h.params
  obtain ⟨new, hnew, htypes, hnames⟩ := readsParams hparams
  obtain rfl : m.params = new := hothers.symm.trans (by simpa using hnew)
  have htaken : m.params.map (·.name) = readNames (givenNames decl) := by
    rw [hnames, readNames, mapIdx_givenNames]
    simp
  obtain ⟨hinOrder, hemitted⟩ := emitted_renameFrom (m.params.map (·.name)) htypes hnames
  have hemittedNames : (withFreshNames m).params.map (·.name) = emittedNames (givenNames decl) := by
    rw [emittedNames, ← htaken, mapIdx_givenNames]
    simpa [withFreshNames] using hemitted
  have hfrom : ∀ p ∈ (withFreshNames m).params, ∃ i given?, given? ∈ givenNames decl ∧
      p.name = emittedName (readNames (givenNames decl)) i given? := fun p hp => by
    have hname : p.name ∈ emittedNames (givenNames decl) := hemittedNames ▸ List.mem_map_of_mem hp
    obtain ⟨i, hi, hmem⟩ := List.mem_mapIdx.mp hname
    exact ⟨i, _, List.getElem_mem hi, hmem.symm⟩
  refine ⟨hinOrder, fun p hp => ?_, hemittedNames ▸ nodup_emittedNames_iff _, fun p hp hraw => ?_, names_ofMethod _⟩
  · obtain ⟨i, given?, _, hname⟩ := hfrom p hp
    rw [hname]
    exact ne_local_of_clashes (clashes_emittedName _ i given?)
  · obtain ⟨i, given?, hgiven, hname⟩ := hfrom p hp
    rw [hname] at hraw ⊢
    exact given_of_raw hraw ▸ hgiven

end Methods

/-- When a trait is accepted, each method of its mock has the declared parameters in their order, none of which is
    called like a local, and they are called differently if the trait names them differently and avoids the names that
    are made up for those without one. -/
theorem parameter_names_of_mock {files : Tree} {src dst : Package} {variadicSlices : Bool} {name : String}
    {r r' : Resolver} {i : Interface} (h : Gives (Interface.ofTrait files src dst variadicSlices name) r i r') :
    (∃ w, ∀ t ∈ i.traits, ∃ k s d, IsListed files src dst variadicSlices w r' k t s d ∧
      List.Forall₂ (NamesParams (SeenAs s dst i.imports.toList)) (d.members.filterMap Walking.declared?) t.methods) ∧
    ∀ n onHelpers, HoldsMethods n i onHelpers :=
  ⟨forall₂_methods h fun _ _ _ _ hlowered => namesParams (hlowered.mirrors Modules.yields_visible_lowerPathText),
    fun n onHelpers => holdsMethods n i onHelpers⟩

section Crane

/-- One method has parameters without names and a name of a local; another one has a parameter without a name and the
    name that is made up for it. -/
def crane : SampleTrait where
  crateName := "pier"
  moduleName := "crane"
  name := "Crane"
  text := "trait Crane \x7b fn lift(&self, _: u8, _args: u8, _a1: u8, (x, y): (u8, u8)); " ++
    "fn lower(&self, _a1: u8, _: u8); \x7d"

/-- The names of the parameters of all methods of a mock. -/
def allParamNames (i : Interface) : List (List String) :=
  (i.traits.flatMap (·.methods)).map fun m => (withFreshNames m).params.map (·.name)

theorem exists_crane : ∃ i r', Gives (crane.interface false) crane.resolver i r' ∧
    (i.traits.length, allParamNames i) = (1, [["_a0", "_a1_", "_a1", "_a3"], ["_a1", "_a1"]]) :=
  exists_gives (by decide +kernel)

theorem parameter_names_of_crane :
    ∃ i r' w t k s d, Gives (crane.interface false) crane.resolver i r' ∧ t ∈ i.traits ∧
      allParamNames i = [["_a0", "_a1_", "_a1", "_a3"], ["_a1", "_a1"]] ∧
      IsListed crane.files crane.home crane.root false w r' k t s d ∧
      List.Forall₂ (NamesParams (SeenAs s crane.root i.imports.toList)) (d.members.filterMap Walking.declared?)
        t.methods ∧
      HoldsMethods ⟨"MockCrane", "tester"⟩ i true := by
  obtain ⟨i, r', hgives, hcrane⟩ := exists_crane
  obtain ⟨htraits, hnames⟩ := Prod.mk.inj hcrane
  obtain ⟨⟨w, hparams⟩, hholds⟩ := parameter_names_of_mock hgives
  obtain ⟨t, ht⟩ := List.exists_mem_of_length_pos (Nat.lt_of_lt_of_eq Nat.zero_lt_one htraits.symm)
  obtain ⟨k, s, d, hlisted, hmethods⟩ := hparams t ht
  exact ⟨i, r', w, t, k, s, d, hgives, ht, hnames, hlisted, hmethods, hholds _ true⟩

/-- Two parameters of a method of this mock have the same name, though those that have a name have different ones. -/
theorem repeated_name_of_crane :
    ¬∀ (files : Tree) (src dst : Package) (variadicSlices : Bool) (name : String) (r r' : Resolver) (i : Interface),
      Gives (Interface.ofTrait files src dst variadicSlices name) r i r' →
        ∀ t ∈ i.traits, ∀ m ∈ t.methods, ((withFreshNames m).params.map (·.name)).Nodup := by
  intro hall
  obtain ⟨i, r', hgives, hcrane⟩ := exists_crane
  obtain ⟨_, hnames⟩ := Prod.mk.inj hcrane
  have hrepeated : ["_a1", "_a1"] ∈ allParamNames i := by simp [hnames]
  obtain ⟨m, hm, hsame⟩ := List.mem_map.mp hrepeated
  obtain ⟨t, ht, hmt⟩ := List.mem_flatMap.mp hm
  have hnodup := hall _ _ _ _ _ _ _ _ hgives t ht m hmt
  rw [hsame] at hnodup
  exact absurd hnodup (by decide)

end Crane

end TraitMock.Generation
