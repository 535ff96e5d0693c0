import TraitMock.Proofs.Mock.Evolution
import TraitMock.Proofs.Mock.Preference
import TraitMock.Proofs.Syntax.Lexemes
import TraitMock.Proofs.Text.Occurrences
import TraitMock.Proofs.Text.Segments
import TraitMock.Signature.Printer

namespace TraitMock

open Signature (argsText)
open Syntax (IsPlain)

/-- A part of the path in front of a function. -/
inductive PathSegment where
  | name (ident : String) (plain : IsPlain ident.toList)
  /-- The implementation that the function belongs to, in angle brackets. -/
  | qualifier (inner : String)

def PathSegment.text : PathSegment → String
  | name ident _ => ident
  | qualifier inner => "<" ++ inner ++ ">"

def PathSegment.inner? : PathSegment → Option String
  | name _ _ => none
  | qualifier inner => some inner

/-- The type name of a function item. -/
structure FunctionName where
  path : List PathSegment
  ident : String
  plain : IsPlain ident.toList
  /-- The type names of the arguments, none for a function that is not generic. -/
  typeArgs : List String

/-- What must not occur in a type name that has a method name. -/
def hidingParts : List String := ["\x7b\x7bclosure\x7d\x7d", "("]

/-- No method name is taken from a text. -/
def HidesName (text : String) : Prop := ∃ part ∈ hidingParts, Text.contains text part = true

instance : DecidablePred HidesName := fun text =>
  inferInstanceAs (Decidable (∃ part ∈ hidingParts, Text.contains text part = true))

namespace HidesName

/-- What stands between the parts of a type name. -/
def separators : List String := ["::", "<", ">", ", "]

theorem separators_apart : ∀ sep ∈ separators, sep ≠ "" ∧
    ∀ part ∈ hidingParts, part ≠ "" ∧ ∀ c ∈ sep.toList, c ∉ part.toList := by
  simp [separators, hidingParts]

variable {s t sep : String}

theorem append_iff (hsep : sep ∈ separators) : HidesName (s ++ sep ++ t) ↔ HidesName s ∨ HidesName t := by
  obtain ⟨hne, hapart⟩ := separators_apart sep hsep
  unfold HidesName
  rw [← exists_or]
  refine exists_congr fun part => ?_
  rw [← and_or_left]
  exact and_congr_right fun hpart => Text.contains_append_iff hne (hapart part hpart).2

theorem intercalate_iff (hsep : sep ∈ separators) (texts : List String) :
    HidesName (sep.intercalate texts) ↔ ∃ t ∈ texts, HidesName t := by
  obtain ⟨hne, hapart⟩ := separators_apart sep hsep
  constructor
  · rintro ⟨part, hpart, hoccurs⟩
    obtain ⟨t, ht, hin⟩ :=
      (Text.contains_intercalate_iff (hapart part hpart).1 hne (hapart part hpart).2 texts).mp hoccurs
    exact ⟨t, ht, part, hpart, hin⟩
  · rintro ⟨t, ht, part, hpart, hin⟩
    exact ⟨part, hpart,
      (Text.contains_intercalate_iff (hapart part hpart).1 hne (hapart part hpart).2 texts).mpr ⟨t, ht, hin⟩⟩

theorem empty : ¬HidesName "" := by decide

theorem brackets_iff : HidesName ("<" ++ t ++ ">") ↔ HidesName t := by
  have hparts : "<" ++ t ++ ">" = "" ++ "<" ++ (t ++ ">" ++ "") := by simp [String.append_assoc]
  rw [hparts, append_iff (by simp [separators]), append_iff (by simp [separators])]
  simp [empty]

/-- An identifier has no character of these parts. -/
theorem not_of_plain (h : IsPlain s.toList) : ¬HidesName s := by
  rintro ⟨part, hpart, hoccurs⟩
  have hforeign : ∀ part ∈ hidingParts, (part.toList.find? fun c => !Text.isNameContinue c).isSome = true := by
    decide
  obtain ⟨c, hfound⟩ := Option.isSome_iff_exists.mp (hforeign part hpart)
  have hc : c ∈ part.toList := List.mem_of_find?_eq_some hfound
  have hnot : Text.isNameContinue c = false := by simpa using List.find?_some hfound
  have hcontinue := h.2 c ((Text.contains_iff.mp hoccurs).subset hc)
  rw [hnot] at hcontinue
  cases hcontinue

end HidesName

namespace FunctionName

variable (f : FunctionName)

def text : String := Text.joinPath (f.path.map PathSegment.text ++ [f.ident ++ argsText f.typeArgs])

/-- The texts in angle brackets: those of the path, and the type arguments. -/
def bracketed : List String := f.path.filterMap PathSegment.inner? ++ f.typeArgs

/-- The proxy of a function with this name. -/
def proxy (g : ProxyFunction) : Proxy := .ofFunction { g with typeName := f.text }

/-- The function has no type arguments, and nothing in the brackets of its path hides its name. -/
def ShowsName : Prop := f.typeArgs = [] ∧ ∀ t ∈ f.bracketed, ¬HidesName t

private theorem hidesName_argsText (args : List String) : HidesName (argsText args) ↔ ∃ t ∈ args, HidesName t := by
  unfold argsText
  split
  · rename_i hempty
    simp [hempty, HidesName.empty]
  · rw [HidesName.brackets_iff, HidesName.intercalate_iff (by simp [HidesName.separators])]

private theorem hidesName_ident_args : HidesName (f.ident ++ argsText f.typeArgs) ↔ ∃ t ∈ f.typeArgs, HidesName t := by
  rw [← hidesName_argsText]
  by_cases hempty : f.typeArgs = []
  · simpa [argsText, hempty, HidesName.empty] using HidesName.not_of_plain f.plain
  · have hparts : f.ident ++ argsText f.typeArgs =
        f.ident ++ "<" ++ (", ".intercalate f.typeArgs ++ ">") := by
      simp [argsText, hempty, String.append_assoc]
    have hargs : argsText f.typeArgs = "" ++ "<" ++ (", ".intercalate f.typeArgs ++ ">") := by
      simp [argsText, hempty, String.append_assoc]
    rw [hparts, hargs, HidesName.append_iff (by simp [HidesName.separators]),
      HidesName.append_iff (by simp [HidesName.separators])]
    simp [HidesName.not_of_plain f.plain, HidesName.empty]

private theorem hidesName_segment (seg : PathSegment) : HidesName seg.text ↔ ∃ t, seg.inner? = some t ∧ HidesName t := by
  cases seg with
  | name ident plain => simpa [PathSegment.text, PathSegment.inner?] using HidesName.not_of_plain plain
  | qualifier inner => simpa [PathSegment.text, PathSegment.inner?] using HidesName.brackets_iff

theorem hidesName_text : HidesName f.text ↔ ∃ t ∈ f.bracketed, HidesName t := by
  have hpath : (∃ t ∈ f.path.map PathSegment.text, HidesName t) ↔
      ∃ t ∈ f.path.filterMap PathSegment.inner?, HidesName t := by
    simp only [List.mem_map, List.mem_filterMap, exists_exists_and_eq_and, hidesName_segment]
    constructor
    · rintro ⟨seg, hseg, t, ht, hhides⟩
      exact ⟨t, ⟨seg, hseg, ht⟩, hhides⟩
    · rintro ⟨t, ⟨seg, hseg, ht⟩, hhides⟩
      exact ⟨seg, hseg, t, ht, hhides⟩
  rw [text, Text.joinPath, HidesName.intercalate_iff (by simp [HidesName.separators]), bracketed]
  simp only [List.mem_append, or_and_right, exists_or, hpath, List.mem_singleton, exists_eq_left,
    hidesName_ident_args]

private theorem methodName?_eq (typeName : String) :
    ProxyFunction.methodName? typeName = if HidesName typeName then none else some (Text.lastSegment typeName) := by
  simp [ProxyFunction.methodName?, HidesName, hidingParts]

private theorem isName_of_plain {s : String} (h : IsPlain s.toList) : Text.IsName s := fun hcolon =>
  Syntax.isNameContinue_ne (h.2 ':' hcolon) (by decide) rfl

theorem lastSegment_text (hargs : f.typeArgs = []) : Text.lastSegment f.text = f.ident := by
  have hlast : f.ident ++ argsText f.typeArgs = f.ident := by simp [argsText, hargs]
  rw [text, hlast, Text.lastSegment_joinPath _ (isName_of_plain f.plain)]

/-- The last segment reaches to the end of a text. -/
theorem lastSegment_push {c : Char} (hc : c ≠ ':') (s : String) :
    ∃ front, Text.lastSegment (s ++ c.toString) = front ++ c.toString := by
  have hback : (s ++ c.toString).toList.reverse = c :: s.toList.reverse := by simp
  have hfirst : ∃ part parts, Text.splitPath (c :: s.toList.reverse) = (c :: part) :: parts := by
    cases s.toList.reverse with
    | nil => exact ⟨[], [], rfl⟩
    | cons d rest =>
      rw [Text.splitPath_cons (by simp [hc])]
      cases Text.splitPath (d :: rest) with
      | nil => exact ⟨[], [], rfl⟩
      | cons part parts => exact ⟨part, parts, rfl⟩
  obtain ⟨part, parts, hsplit⟩ := hfirst
  refine ⟨String.ofList part.reverse, String.toList_injective ?_⟩
  simp [Text.lastSegment, hsplit]

private theorem lastSegment_of_generic (hargs : f.typeArgs ≠ []) : ∃ front, Text.lastSegment f.text = front ++ ">" := by
  have hlast : f.ident ++ argsText f.typeArgs = f.ident ++ "<" ++ ", ".intercalate f.typeArgs ++ ">" := by
    simp [argsText, hargs, String.append_assoc]
  have hend : ∃ front, f.text = front ++ '>'.toString := by
    rw [text, hlast]
    by_cases hpath : f.path = []
    · exact ⟨f.ident ++ "<" ++ ", ".intercalate f.typeArgs, by simp [hpath, Text.joinPath]⟩
    · rw [Text.joinPath_append (by simpa using hpath) (by simp)]
      exact ⟨Text.joinPath (f.path.map PathSegment.text) ++ "::" ++ (f.ident ++ "<" ++ ", ".intercalate f.typeArgs),
        by simp [Text.joinPath, String.append_assoc]⟩
  obtain ⟨front, hfront⟩ := hend
  rw [hfront]
  exact lastSegment_push (by decide) front

section Name

variable {f} {g : ProxyFunction}

theorem name?_proxy : (f.proxy g).name? = if HidesName f.text then none else some (Text.lastSegment f.text) :=
  methodName?_eq f.text

theorem name?_eq_none_iff : (f.proxy g).name? = none ↔ ∃ t ∈ f.bracketed, HidesName t := by
  rw [name?_proxy, ← hidesName_text]
  simp

/-- A generic function has no name that could be called. -/
theorem not_plain_of_generic (hargs : f.typeArgs ≠ []) {name : String} (h : (f.proxy g).name? = some name) :
    ¬IsPlain name.toList := by
  obtain ⟨front, hfront⟩ := f.lastSegment_of_generic hargs
  rw [name?_proxy] at h
  split at h
  · cases h
  · obtain rfl : front ++ ">" = name := by simpa [hfront] using h
    intro hplain
    have hbracket : Text.isNameContinue '>' = true := hplain.2 '>' (by simp)
    exact absurd hbracket (by decide)

theorem name?_eq_ident_iff : (f.proxy g).name? = some f.ident ↔ f.ShowsName := by
  constructor
  · intro h
    refine ⟨by_contra fun hargs => not_plain_of_generic hargs h f.plain, fun t ht hhides => ?_⟩
    have hnone : (f.proxy g).name? = none := name?_eq_none_iff.mpr ⟨t, ht, hhides⟩
    rw [hnone] at h
    cases h
  · rintro ⟨hargs, hshown⟩
    have hnot : ¬HidesName f.text := fun hhides => by
      obtain ⟨t, ht, hin⟩ := f.hidesName_text.mp hhides
      exact hshown t ht hin
    rw [name?_proxy, if_neg hnot, f.lastSegment_text hargs]

private theorem eq_ident_or_not_plain {name : String} (h : (f.proxy g).name? = some name) :
    name = f.ident ∨ ¬IsPlain name.toList := by
  by_cases hargs : f.typeArgs = []
  · rw [name?_proxy] at h
    split at h
    · cases h
    · exact .inl (by simpa [f.lastSegment_text hargs] using h.symm)
  · exact .inr (not_plain_of_generic hargs h)

end Name

end FunctionName

namespace Selection

variable {expected : List Candidate} {method : String} {c : Candidate}

private theorem exists_select_of_delegates (hcoherent : ∀ c ∈ ofMethod expected method, c.2.Coherent)
    (hmem : c ∈ ofMethod expected method) (hc : c.2.Delegates) (log : MatchLog) (args : Arguments) :
    ∃ id, (select log expected method args).1 = .ok id := by
  have hsome : firstProxy (ofMethod expected method) ≠ none := fun hnone =>
    (firstProxy_eq_none_iff hcoherent).mp hnone c hmem hc
  obtain ⟨id, hid⟩ := Option.ne_none_iff_exists'.mp hsome
  unfold select
  dsimp only
  rw [← ofMethod]
  rcases firstMatch args log (ofMethod expected method) with ⟨picked, next⟩
  cases picked with
  | some first => exact ⟨first, rfl⟩
  | none => exact ⟨id, by simp [hid]⟩

/-- A proxy that is the only expectation of a method is picked without a comparison. -/
theorem select_of_sole (hsole : ofMethod expected method = [c]) (hc : c.2.Delegates) (log : MatchLog)
    (args : Arguments) : select log expected method args = (.ok c.1, log) := by
  obtain ⟨hcallable, hproxy, hpattern⟩ := hc
  have haccepts : c.2.acceptsAny = true := by simp [Expectation.acceptsAny, hproxy, hpattern]
  have hmatch : firstMatch args log [c] = (none, log) := by
    simp [firstMatch, matches_, hcallable, haccepts, Option.isNone_eq_false_iff.mpr hproxy]
  have hfirst : firstProxy [c] = some c.1 := by simp [firstProxy, hcallable, haccepts, hproxy]
  unfold select
  dsimp only
  rw [← ofMethod, hsole, hmatch]
  simp [hfirst]

end Selection

namespace Session

variable {s : Session} {m : Nat}

/-- The session after a proxy was registered with a mock. -/
def withProxy (acts : List Act) (m : Nat) (proxy : Proxy) (location : String) : Session :=
  run {} (acts ++ [.answerWith m proxy location])

/-- The expectation that a proxy makes under a name. -/
def delegating (m : Nat) (method : String) (proxy : Proxy) (location : String) : Expectation :=
  { owner := m, method, location, proxy? := some proxy }

theorem delegates_delegating (m : Nat) (method : String) (proxy : Proxy) (location : String) :
    (delegating m method proxy location).Delegates := ⟨rfl, rfl, rfl⟩

theorem withProxy_of_some {proxy : Proxy} {method : String} (h : proxy.name? = some method) (acts : List Act)
    (m : Nat) (location : String) :
    withProxy acts m proxy location = ((run {} acts).register (delegating m method proxy location)).1 := by
  rw [withProxy, run_append, run_cons, run_nil]
  simp [after, answerWith, Expectation.answering, h, delegating]

private theorem withProxy_of_none {proxy : Proxy} (h : proxy.name? = none) (acts : List Act) (m : Nat) (location : String) :
    withProxy acts m proxy location = run {} acts := by
  rw [withProxy, run_append, run_cons, run_nil]
  simp [after, answerWith, Expectation.answering, h]

/-- A call of a method for which a mock has no expectation is refused. -/
theorem call_of_no_expectation {method : String} (h : ∀ c ∈ s.expected m, c.2.method ≠ method) (args : Arguments) :
    ∃ n, (s.call m method args).2 = .rejected n := by
  rcases call_cases s m method args with ⟨n, hcall⟩ | ⟨id, e, hpicks, -⟩
  · exact ⟨n, by rw [hcall]⟩
  · exact absurd hpicks.method_eq (h (id, e) (mem_expected.mpr ⟨hpicks.registered, hpicks.found⟩))

section Answers

variable {method location : String} {proxy : Proxy}

theorem expected_register_delegating (hs : s.Sound) (hm : m < s.mocks.length) :
    (s.register (delegating m method proxy location)).1.expected m =
      s.expected m ++ [(s.expectations.length, delegating m method proxy location)] :=
  expected_register hs (e := delegating m method proxy location) hm

/-- The calls of a method with a proxy are answered, by it or by an expectation that comes before. -/
theorem exists_picks_delegating (hs : s.Sound) (hm : m < s.mocks.length)
    (hcoherent : (s.register (delegating m method proxy location)).1.Coherent) (args : Arguments) :
    ∃ id e, (s.register (delegating m method proxy location)).1.Picks m method args id e := by
  have hmem : (s.expectations.length, delegating m method proxy location) ∈
      Selection.ofMethod ((s.register (delegating m method proxy location)).1.expected m) method := by
    refine Selection.mem_ofMethod.mpr ⟨?_, rfl⟩
    rw [expected_register_delegating hs hm]
    simp
  obtain ⟨id, hselect⟩ := Selection.exists_select_of_delegates
    (fun c hc => hcoherent c.1 c.2 (mem_expected.mp (Selection.mem_ofMethod.mp hc).1).2) hmem
    (delegates_delegating m method proxy location) (s.register (delegating m method proxy location)).1.log args
  exact ⟨id, picks_of_select hselect⟩

/-- A proxy that is the only expectation of its method replies with what its function does. -/
theorem reply_of_sole_delegating (hs : s.Sound) (hm : m < s.mocks.length)
    (hsole : ∀ c ∈ s.expected m, c.2.method ≠ method) (args : Arguments) :
    ((s.register (delegating m method proxy location)).1.call m method args).2 =
      .ofAnswer (proxy.call 0 s.log args) := by
  have hlog := log_register s (delegating m method proxy location)
  have hnamed : Selection.ofMethod ((s.register (delegating m method proxy location)).1.expected m) method =
      [(s.expectations.length, delegating m method proxy location)] := by
    have hnone : (s.expected m).filter (fun c => c.2.method == method) = [] :=
      List.filter_eq_nil_iff.mpr (by simpa using hsole)
    rw [expected_register_delegating hs hm, Selection.ofMethod, List.filter_append, hnone]
    simp [delegating]
  have hselect := Selection.select_of_sole hnamed (delegates_delegating m method proxy location) s.log args
  have hselected : (Selection.select (s.register (delegating m method proxy location)).1.log
      ((s.register (delegating m method proxy location)).1.expected m) method args).1 =
        .ok s.expectations.length := by
    rw [hlog, hselect]
  obtain ⟨e, hpicks⟩ := picks_of_select hselected
  have hfound : (s.register (delegating m method proxy location)).1.expectation? s.expectations.length =
      some (delegating m method proxy location) := by
    simp [expectation?, (register_books s (delegating m method proxy location)).1]
  obtain rfl : delegating m method proxy location = e := Option.some.inj (hfound.symm.trans hpicks.found)
  have hnotes : (s.register (delegating m method proxy location)).1.selectionLog m method args = s.log := by
    rw [selectionLog, hlog, hselect]
  rw [hpicks.call_eq rfl, hnotes]
  rfl

end Answers

end Session

namespace FunctionName

/-- What a proxy of a function item is called, and which calls it answers. The name is the function's identifier exactly
    if it shows; else there is none, or it is no identifier at all. In whatever state of a test the proxy is registered
    with a mock, the calls of the identifier then find an expectation, and are given to the function if the mock has
    no other expectation of that method; a function whose name does not show answers none of them. -/
theorem named_after_function_iff (f : FunctionName) (g : ProxyFunction) :
    ((f.proxy g).name? = some f.ident ↔ f.ShowsName) ∧
    ((f.proxy g).name? = none ↔ ∃ t ∈ f.bracketed, HidesName t) ∧
    (∀ name, (f.proxy g).name? = some name → name = f.ident ∨ ¬IsPlain name.toList) ∧
    ∀ (acts : List Act) (m : Nat) (location : String) (args : Arguments), m < (Session.run {} acts).mocks.length →
      (f.ShowsName → ∃ id e, (Session.withProxy acts m (f.proxy g) location).Picks m f.ident args id e) ∧
      ((∀ c ∈ (Session.run {} acts).expected m, c.2.method ≠ f.ident) →
        (f.ShowsName →
          ((Session.withProxy acts m (f.proxy g) location).call m f.ident args).2 =
            .ofAnswer ((f.proxy g).call 0 (Session.run {} acts).log args)) ∧
        (¬f.ShowsName →
          ∃ n, ((Session.withProxy acts m (f.proxy g) location).call m f.ident args).2 = .rejected n)) := by
  refine ⟨name?_eq_ident_iff, name?_eq_none_iff, fun name => eq_ident_or_not_plain,
    fun acts m location args hm => ?_⟩
  have hsound := Session.sound_run acts
  refine ⟨fun hshows => ?_, fun hsole => ⟨fun hshows => ?_, fun hnot => ?_⟩⟩
  · have hcoherent : (Session.withProxy acts m (f.proxy g) location).Coherent :=
      Session.run_keeps _ Session.coherent_empty fun s a hs => hs.after a
    rw [Session.withProxy_of_some (name?_eq_ident_iff.mpr hshows)] at hcoherent ⊢
    exact Session.exists_picks_delegating hsound hm hcoherent args
  · rw [Session.withProxy_of_some (name?_eq_ident_iff.mpr hshows)]
    exact Session.reply_of_sole_delegating hsound hm hsole args
  · -- without a name nothing is registered, and under another name nothing for this method
    cases hname : (f.proxy g).name? with
    | none =>
      rw [Session.withProxy_of_none hname]
      exact Session.call_of_no_expectation hsole args
    | some name =>
      have hother : name ≠ f.ident := fun heq => hnot (name?_eq_ident_iff.mp (heq ▸ hname))
      rw [Session.withProxy_of_some hname]
      refine Session.call_of_no_expectation (fun c hc => ?_) args
      rw [Session.expected_register_delegating hsound hm] at hc
      rcases List.mem_append.mp hc with hold | hnew
      · exact hsole c hold
      · obtain rfl := List.mem_singleton.mp hnew
        exact hother

section Shop

/-- A function without parameters that returns nothing. -/
def closing : ProxyFunction := { typeName := "", params := [], run := fun _ _ _ => .ok [] }

/-- `<shop::Till as shop::Keep>::close` -/
def closeOfTill : FunctionName :=
  ⟨[.qualifier "shop::Till as shop::Keep"], "close", by decide, []⟩

theorem closeOfTill_answers : 0 < (Session.run {} [.newMock false]).mocks.length ∧
    ((Session.withProxy [.newMock false] 0 (closeOfTill.proxy closing) "shop.rs:1").call 0 "close" []).2 =
      .returned [] := by
  have hmock : 0 < (Session.run {} [.newMock false]).mocks.length := by decide
  have hshows : closeOfTill.ShowsName := by
    refine ⟨rfl, ?_⟩
    decide
  have hnone : (Session.run {} [.newMock false]).expected 0 = [] := rfl
  obtain ⟨-, -, -, hanswers⟩ := named_after_function_iff closeOfTill closing
  obtain ⟨-, hsole⟩ := hanswers [.newMock false] 0 "shop.rs:1" [] hmock
  exact ⟨hmock, (hsole (by rw [hnone]; exact List.forall_mem_nil _)).1 hshows⟩

/-- `shop::first` with this type argument. -/
def firstOf (type : String) : FunctionName := ⟨[.name "shop" (by decide)], "first", by decide, [type]⟩

theorem generic_functions_are_misnamed :
    ((firstOf "i32").proxy closing).name? = some "first<i32>" ∧
    ((firstOf "alloc::vec::Vec<i32>").proxy closing).name? = some "Vec<i32>>" ∧
    ((firstOf "(i32, u8)").proxy closing).name? = none ∧
    ¬∀ (f : FunctionName) (g : ProxyFunction), (f.proxy g).name? = some f.ident := by
  refine ⟨by decide, by decide, by decide, fun hall => ?_⟩
  have hnamed := hall (firstOf "i32") closing
  exact absurd hnamed (by decide)

end Shop

end FunctionName

end TraitMock
