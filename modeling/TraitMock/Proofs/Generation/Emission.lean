import Mathlib.Data.List.Infix
import TraitMock.Generation.MockSource
import TraitMock.Proofs.Interface.Supertraits

namespace TraitMock.Generation

open Files (Tree)
open Modules (Scope)
open Syntax (MethodDecl)

namespace Code

/-- The lines of some code stand one below the other in other code, perhaps further to the right. -/
def StandsIn (part code : List Code) : Prop := ∃ steps, ∀ depth, linesOf (depth + steps) part <:+: linesOf depth code

variable {part code : List Code}

theorem linesOf_append (depth : Nat) (front back : List Code) :
    linesOf depth (front ++ back) = linesOf depth front ++ linesOf depth back := by
  induction front with
  | nil => rfl
  | cons c front ih => rw [List.cons_append, linesOf, linesOf, ih, List.append_assoc]

theorem standsIn_self (code : List Code) : StandsIn code code := ⟨0, fun _ => List.infix_rfl⟩

theorem StandsIn.append (h : StandsIn part code) (front back : List Code) : StandsIn part (front ++ code ++ back) := by
  obtain ⟨steps, hlines⟩ := h
  refine ⟨steps, fun depth => (hlines depth).trans ?_⟩
  rw [linesOf_append, linesOf_append]
  exact ⟨_, _, rfl⟩

theorem StandsIn.behind (h : StandsIn part code) (front : List Code) : StandsIn part (front ++ code) := by
  simpa using h.append front []

theorem StandsIn.before (h : StandsIn part code) (back : List Code) : StandsIn part (code ++ back) := by
  simpa using h.append [] back

theorem StandsIn.braced (h : StandsIn part code) (head : String) : StandsIn part (braced head code) := by
  obtain ⟨steps, hlines⟩ := h
  have hinner : StandsIn part [.inner code] := by
    refine ⟨1 + steps, fun depth => ?_⟩
    simpa [linesOf, lines, Nat.add_assoc] using hlines (depth + 1)
  exact hinner.append [.line (head ++ " \x7b")] [.line "\x7d"]

theorem StandsIn.flatMap {α : Type} {f : α → List Code} {x : α} {xs : List α} (h : StandsIn part (f x)) (hx : x ∈ xs) :
    StandsIn part (xs.flatMap f) := by
  obtain ⟨front, back, rfl⟩ := List.append_of_mem hx
  rw [List.flatMap_append, List.flatMap_cons]
  exact (h.before _).behind _

theorem mem_linesOf {c : Code} {depth : Nat} {line : String} (hc : c ∈ code) (hline : line ∈ c.lines depth) :
    line ∈ linesOf depth code := by
  obtain ⟨front, back, rfl⟩ := List.append_of_mem hc
  rw [linesOf_append, linesOf]
  exact List.mem_append_right _ (List.mem_append_left _ hline)

theorem exists_indented (depth : Nat) (text : String) : ∃ blanks, indented depth text = blanks ++ text := by
  unfold indented
  split
  · rename_i hempty
    exact ⟨"", by simp [hempty]⟩
  · exact ⟨_, rfl⟩

/-- Some text stands in a line of some code. -/
def Says (code : List Code) (text : String) : Prop :=
  ∃ line ∈ linesOf 0 code, ∃ before after, line = before ++ text ++ after

theorem Says.of_append {front back : String} (h : Says code (front ++ back)) : Says code back := by
  obtain ⟨line, hline, before, after, rfl⟩ := h
  exact ⟨_, hline, before ++ front, after, by simp [String.append_assoc]⟩

theorem says_of_line {text : String} (before after : String) (h : .line (before ++ text ++ after) ∈ code) :
    Says code text := by
  obtain ⟨blanks, hline⟩ := exists_indented 0 (before ++ text ++ after)
  refine ⟨_, mem_linesOf h (List.mem_singleton.mpr rfl), blanks ++ before, after, ?_⟩
  rw [hline]
  simp [String.append_assoc]

theorem says_of_inner {body : List Code} {text : String} (hbody : .inner body ∈ code) (before after : String)
    (h : .line (before ++ text ++ after) ∈ body) : Says code text := by
  obtain ⟨blanks, hline⟩ := exists_indented 1 (before ++ text ++ after)
  refine ⟨_, mem_linesOf hbody (mem_linesOf h (List.mem_singleton.mpr rfl)), blanks ++ before, after, ?_⟩
  rw [hline]
  simp [String.append_assoc]

end Code

/-- Generated code gives some parameters other names, and leaves their types alone. -/
theorem types_withFreshNames (m : Method) : (withFreshNames m).params.map (·.type) = m.params.map (·.type) := by
  have hrename : ∀ taken i (ps : List Param), (renameFrom taken i ps).map (·.type) = ps.map (·.type) := by
    intro taken i ps
    induction ps generalizing i with
    | nil => rfl
    | cons p rest ih =>
      rw [renameFrom, List.map_cons, List.map_cons, ih]
      split <;> rfl
  exact hrename _ _ _

variable {i : Interface} {t : TraitImpl} {m : Method}

private theorem methodCode_standsIn_methodsCode {ms : List Method} (hm : m ∈ ms) :
    Code.StandsIn (methodCode (withFreshNames m)) (MockNames.methodsCode ms) := by
  induction ms with
  | nil => exact absurd hm List.not_mem_nil
  | cons first rest ih =>
    have hself := Code.standsIn_self (methodCode (withFreshNames m))
    cases rest with
    | nil =>
      obtain rfl := List.mem_singleton.mp hm
      exact hself
    | cons second rest =>
      rcases List.mem_cons.mp hm with rfl | hrest
      · exact hself.before _
      · exact ((ih hrest).behind [.blank]).behind _

private theorem methodCode_standsIn (n : MockNames) (onHelpers : Bool) (ht : t ∈ i.traits) (hm : m ∈ t.methods) :
    Code.StandsIn (methodCode (withFreshNames m)) (n.code i onHelpers) := by
  have himpl : Code.StandsIn (methodCode (withFreshNames m)) (n.implCode t) := by
    have hsome : t.methods.isEmpty = false := by
      simpa [List.isEmpty_eq_false_iff] using List.ne_nil_of_mem hm
    rw [MockNames.implCode, hsome]
    exact ((methodCode_standsIn_methodsCode hm).braced _).behind _
  exact (himpl.flatMap ht).behind _

private theorem helper_standsIn (n : MockNames) (hm : m ∈ i.methods) :
    Code.StandsIn (Helper.ofMethod (withFreshNames m)).code (n.code i true) := by
  have hall : Code.StandsIn (Helper.ofMethod (withFreshNames m)).code
      (i.methods.flatMap fun m => (Helper.ofMethod (withFreshNames m)).code) :=
    Code.StandsIn.flatMap (Code.standsIn_self _) hm
  have hown : Code.StandsIn (Helper.ofMethod (withFreshNames m)).code (n.ownCode i.methods) :=
    ((hall.behind _).braced _).behind [.blank]
  exact ((hown.behind _).before _).before _

/-- The code of a mock has a body for each method of each trait and, with helpers, one of these for each name of a
    method: that of the first method of this name. -/
structure HoldsMethods (n : MockNames) (i : Interface) (onHelpers : Bool) : Prop where
  bodies : ∀ t ∈ i.traits, ∀ m ∈ t.methods,
    Code.StandsIn (methodCode (withFreshNames m)) (n.code i onHelpers)
  helpers : onHelpers = true → ∀ m ∈ i.methods,
    Code.StandsIn (Helper.ofMethod (withFreshNames m)).code (n.code i onHelpers)
  firsts : FirstOfEach i

theorem holdsMethods (n : MockNames) (i : Interface) (onHelpers : Bool) : HoldsMethods n i onHelpers where
  bodies _ ht _ hm := methodCode_standsIn n onHelpers ht hm
  helpers honHelpers m hm := by
    subst honHelpers
    exact helper_standsIn n hm
  firsts := firstOfEach i

theorem mapIdx_succ {α β : Type} (f : Nat → α → β) (i : Nat) (l : List α) :
    (l.mapIdx fun k a => f (i + (k + 1)) a) = l.mapIdx fun k a => f (i + 1 + k) a := by
  have hsame : ∀ k, i + (k + 1) = i + 1 + k := fun k => by omega
  exact congrArg l.mapIdx (funext fun k => congrArg f (hsame k))

/-- What holds of whatever a declaration is lowered to holds of the declarations and methods of each trait of an
    interface. -/
theorem forall₂_methods {files : Tree} {src dst : Package} {variadicSlices : Bool} {name : String}
    {r r' : Resolver} (h : Gives (Interface.ofTrait files src dst variadicSlices name) r i r')
    {P : Scope → MethodDecl → Method → Prop}
    (hP : ∀ s path decl m, Method.LoweredFrom s dst variadicSlices path i.imports.toList decl m → P s decl m) :
    ∃ w, ∀ t ∈ i.traits, ∃ k s d, IsListed files src dst variadicSlices w r' k t s d ∧
      List.Forall₂ (P s) (d.members.filterMap Walking.declared?) t.methods := by
  obtain ⟨w, rfl, hlisted⟩ := exists_isListed h
  refine ⟨w, fun t ht => ?_⟩
  obtain ⟨k, s, d, hl⟩ := hlisted t ht
  exact ⟨k, s, d, hl, hl.implements.methods.imp fun decl m => hP s t.path decl m⟩

section Sample

/-- A trait in a module of a crate that has no other ones, which is mocked in the root of the crate. -/
structure SampleTrait where
  crateName : String
  moduleName : String
  name : String
  /-- The text of the module. -/
  text : String

namespace SampleTrait

variable (x : SampleTrait)

def files : Tree :=
  ⟨[([x.crateName], .directory), ([x.crateName, "src"], .directory),
    ([x.crateName, "src", "lib.rs"], .file (Text.encodeUtf8 ("mod " ++ x.moduleName ++ ";"))),
    ([x.crateName, "src", x.moduleName ++ ".rs"], .file (Text.encodeUtf8 x.text))]⟩

def directory : Path := ⟨"/" ++ x.crateName⟩

def rootFile : Path := ⟨"/" ++ x.crateName ++ "/src/lib.rs"⟩

def root : Package := ⟨x.crateName, x.directory, x.rootFile, [], x.rootFile⟩

def home : Package :=
  ⟨x.crateName, x.directory, x.rootFile, [x.moduleName],
    ⟨"/" ++ x.crateName ++ "/src/" ++ x.moduleName ++ ".rs"⟩⟩

def resolver : Resolver where
  cwd := x.directory
  known? := some [⟨x.crateName, x.crateName, .lib, x.directory, x.rootFile⟩]

def interface (variadicSlices : Bool) : Resolving Interface :=
  Interface.ofTrait x.files x.home x.root variadicSlices x.name

end SampleTrait

end Sample

end TraitMock.Generation
