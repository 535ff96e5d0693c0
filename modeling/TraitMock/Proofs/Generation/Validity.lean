import TraitMock.Proofs.Generation.ImportBlocks
import TraitMock.Proofs.Generation.SimpleInterfaces
import TraitMock.Proofs.Generation.SignatureNames

namespace TraitMock.Generation

open Syntax (Closes ImportExpr IsPlain Shape Spells parse spells_literal)
open Syntax.Reader
open Signature (IsPathText SigType partsOfArgs)
open Code (Prints prints_blank prints_comment)

section Files

variable {imports : ImportSet} {code : List Code} {ss : List Shape}

/-- The text of a file spells the declarations of its imports and what its code is written as. -/
theorem exists_closes (himports : ∀ x ∈ imports.toList, x.IsWritable) (hcode : Prints code ss) :
    ∃ l : List Import, (∀ x ∈ l, x.IsWritable) ∧ Closes (header ++ "\n\n" ++ importBlock imports ++ Code.text code)
      ((l.map fun x => x.tree.declShapes).flatten ++ ss) := by
  obtain ⟨standard, other, hlaid⟩ := exists_isLaidOut himports
  have hstandard : ∀ x ∈ standard, x.IsWritable := fun x hx => himports x ((hlaid.mem_standard x).mp hx).1
  have hother : ∀ x ∈ other, x.IsWritable := fun x hx => himports x ((hlaid.mem_other x).mp hx).1
  have hgap : Syntax.IsGap (if standard = [] ∨ other = [] then "" else "\n").toList := by
    split
    · exact Syntax.isGap_nil
    · exact Syntax.isGap_blank (by decide)
  have hblock := closes_groups hstandard hother hgap
  rw [← hlaid.text] at hblock
  have hheader : Closes (header ++ "\n\n") [] := by
    have hcomment : '\n' ∉ " Code generated by mockkit. DO NOT EDIT.".toList := by decide
    have hlines := ((prints_comment hcomment).append prints_blank) 0
    have htext : linesText (Code.linesOf 0 ([.line ("//" ++ " Code generated by mockkit. DO NOT EDIT.")] ++ [.blank])) =
        header ++ "\n\n" := by decide
    rwa [htext] at hlines
  have hall := (hheader.append hblock fun _ _ => trivial).append (hcode 0) fun _ _ => trivial
  refine ⟨standard ++ other, List.forall_mem_append.mpr ⟨hstandard, hother⟩, ?_⟩
  simpa [List.flatMap, List.map_map, Function.comp_def, Code.text] using hall

theorem skipInterpreter_source (rest : String) :
    Syntax.skipInterpreter (header ++ "\n\n" ++ rest).toList = (header ++ "\n\n" ++ rest).toList := by
  refine Syntax.skipInterpreter_eq_self ?_
  have hhead : (header ++ "\n\n").toList.head? = some '/' := by decide
  rw [String.toList_append, List.head?_append, hhead]
  simp

/-- The declarations of some imports are entries of a file. -/
theorem takes_imports {l : List Import} (hl : ∀ x ∈ l, x.IsWritable) :
    ∀ us ∈ l.map fun x => x.tree.declShapes, us ≠ [] ∧ Takes entry us fun _ => True := by
  intro us hus
  obtain ⟨x, hx, rfl⟩ := List.mem_map.mp hus
  exact ⟨by simp [ImportExpr.declShapes], takes_entry_decl (hl x hx).isValid_tree⟩

theorem IsItem.takes_entry {k : Nat} (hk : k ≤ 10) (h : IsItem k ss) : ss ≠ [] ∧ Takes entry ss fun _ => True :=
  ⟨h.1, Syntax.Reader.takes_entry hk h.2⟩

/-- A file of imports and items is well-formed. -/
theorem isSome_parse_source (himports : ∀ x ∈ imports.toList, x.IsWritable) {k : Nat} (hk : k ≤ 10)
    (hcode : IsItemsCode k code) : (parse (header ++ "\n\n" ++ importBlock imports ++ Code.text code)).isSome := by
  obtain ⟨items, hprints, hitems⟩ := hcode
  obtain ⟨l, hl, hcloses⟩ := exists_closes himports hprints
  rw [← List.flatten_append] at hcloses
  refine exists_parse hcloses (by rw [String.append_assoc]; exact skipInterpreter_source _) ?_
  exact List.forall_mem_append.mpr ⟨takes_imports hl, fun us hus => (hitems us hus).takes_entry hk⟩

/-- A file with a function among its code whose name does not stand in front of its parameters is not well-formed. -/
theorem parse_source_eq_none (himports : ∀ x ∈ imports.toList, x.IsWritable) {mock : String} (hmock : IsTypePath [mock])
    {front items : List (List Shape)} {us : List Shape} (hcode : Prints code
      (front.flatten ++ (.word "impl" :: .word mock :: .mark "\x7b" :: items.flatten ++ (rawHead ++ us))))
    (hfront : ∀ ss ∈ front, IsItem 7 ss) (hitems : ∀ ss ∈ items, IsItem 3 ss) :
    parse (header ++ "\n\n" ++ importBlock imports ++ Code.text code) = none := by
  obtain ⟨l, hl, hcloses⟩ := exists_closes himports hcode
  obtain ⟨ts, htokens, hfit⟩ := Syntax.tokens_of_closes hcloses (by rw [String.append_assoc]; exact skipInterpreter_source _)
  rw [← List.append_assoc, ← List.flatten_append] at hfit
  obtain ⟨start, back, hstart, hback, rfl⟩ := Syntax.fit_append.mp hfit
  obtain ⟨impl, broken, himpl, hbroken, rfl⟩ := Syntax.fit_append.mp hback
  obtain ⟨head, rest, hhead, -, rfl⟩ := Syntax.fit_append.mp hbroken
  have hclose : Syntax.Reader.mark "\x7d" (head ++ rest) = none := by
    obtain ⟨gap, commented, more, rfl, -⟩ := Syntax.fit_word.mp hhead
    simp
  have hnone : entry (impl ++ (head ++ rest)) = none :=
    entry_brokenImplementation (show 3 ≤ 5 by decide) hmock hitems himpl (fun _ => item_brokenFunction hhead) hclose
  have hfirst : ∀ us ∈ l.map (fun x => x.tree.declShapes) ++ front, us ≠ [] ∧ Takes entry us fun _ => True :=
    List.forall_mem_append.mpr ⟨takes_imports hl, fun us hus => (hfront us hus).takes_entry (by decide)⟩
  have hmany := takes_many (p := fun _ => True) fun us hus => ⟨(hfirst us hus).1, (hfirst us hus).2, fun _ _ _ => trivial⟩
  obtain ⟨es, hes⟩ := hmany start (impl ++ (head ++ rest)) hstart ⟨trivial, hnone⟩
  have hne : impl ++ (head ++ rest) ≠ [] := by
    obtain ⟨gap, commented, more, rfl, -⟩ := Syntax.fit_word.mp himpl
    simp
  have hrepeated : repeated entry (start ++ (impl ++ (head ++ rest))) = (es, impl ++ (head ++ rest)) := by simpa using hes
  simp [parse, htokens, file, hrepeated, atEnd, hne]

end Files

section Mocks

variable {i : Interface} {mockName text : String} {s : SharedSettings}

/-- Where all that is copied into a mock can stand where it is written, the text of the mock is well-formed exactly if
    it has no helper for a method whose name a mark lets be a keyword. -/
theorem parse_mockSource_iff (hnames : MockNames.IsWritten ⟨mockName, (testerImport s).name⟩)
    (hown : ∀ x ∈ ownImports s, x.IsWritable) (hi : Interface.IsWritten i) (himports : ∀ x ∈ i.imports.toList, x.IsWritable)
    (h : mockSource i mockName s = .ok text) :
    (parse text).isSome ↔ (s.onHelpers = true → ∀ m ∈ i.methods, IsPlain m.name.toList) := by
  obtain ⟨-, -, rfl⟩ := mockSource_eq_ok_iff.mp h
  have hall : ∀ x ∈ ((ownImports s).foldl ImportSet.insert i.imports).toList, x.IsWritable := fun x hx =>
    (mem_foldl_insert.mp hx).elim (himports x) (hown x)
  refine ⟨fun hparse hhelpers => ?_, fun hplain => isSome_parse_source hall (by decide) (isItemsCode_code hnames hi hplain)⟩
  by_contra hnot
  obtain ⟨front, items, us, hcode, hfront, hitems⟩ := exists_rawCode hnames hi (by simpa using hnot)
  rw [hhelpers, parse_source_eq_none hall hnames.mockPath hcode hfront hitems] at hparse
  simp at hparse

/-- A trait with a method that has a parameter and a result. -/
def larder : SampleTrait where
  crateName := "kitchen"
  moduleName := "larder"
  name := "Larder"
  text := "struct Item; trait Larder \x7b fn get(&self, key: &str) -> Option<(Item, u32)>; \x7d"

private theorem exists_larder : ∃ i r', Gives (larder.interface false) larder.resolver i r' ∧
    (decide (Interface.IsSimple i), i.imports.toList, i.methods.map (·.name)) =
      (true, [⟨"crate::larder", none⟩], ["get"]) :=
  exists_gives (by decide +kernel)

/-- A mock of the trait with a helper is well-formed. -/
theorem parse_mockSource_larder : ∃ i r' text, Gives (larder.interface false) larder.resolver i r' ∧
    mockSource i "MockLarder" { onHelpers := true } = .ok text ∧ (parse text).isSome := by
  obtain ⟨i, r', hgives, hi⟩ := exists_larder
  obtain ⟨hsimple, hi⟩ := Prod.mk.inj hi
  obtain ⟨himports, hmethods⟩ := Prod.mk.inj hi
  have hnames : MockNames.IsWritten ⟨"MockLarder", (testerImport { onHelpers := true }).name⟩ := by
    have hname : (testerImport { onHelpers := true }).name = "tester" := by decide
    rw [hname]
    exact ⟨by decide, by decide, by decide, by decide⟩
  have hown : ∀ x ∈ ownImports { onHelpers := true }, x.IsWritable := by decide
  have hplain : ∀ m ∈ i.methods, IsPlain m.name.toList := by
    have hget : ∀ name ∈ i.methods.map (·.name), IsPlain name.toList := by rw [hmethods]; decide
    exact fun m hm => hget m.name (List.mem_map_of_mem hm)
  have hsource := mockSource_eq_ok_iff.mpr
    (⟨by rw [himports]; decide, by rw [himports]; decide, rfl⟩ : (∀ x ∈ i.imports.toList, x.name ≠ "MockLarder") ∧
      KeepsOwn { onHelpers := true } i.imports.toList ∧ _ = _)
  have hwritten := Interface.isWritten_of_isSimple (of_decide_eq_true hsimple)
  exact ⟨i, r', _, hgives, hsource,
    (parse_mockSource_iff hnames hown hwritten (by rw [himports]; decide) hsource).mpr fun _ => hplain⟩

end Mocks

section Keyword

private theorem toList_linesText (lines : List String) :
    (linesText lines).toList = lines.flatMap fun l => l.toList ++ ['\n'] := by
  induction lines with
  | nil => rfl
  | cons l rest ih =>
    have hcons : linesText (l :: rest) = (l ++ "\n") ++ linesText rest := by simp [linesText, String.join_cons]
    rw [hcons, String.toList_append, String.toList_append, ih]
    rfl

/-- The characters of a generated file, line by line. -/
def fileChars (imports : ImportSet) (n : MockNames) (i : Interface) (onHelpers : Bool) : List Char :=
  header.toList ++ ['\n', '\n'] ++ (importBlock imports).toList ++
    (Code.linesOf 0 (n.code i onHelpers)).flatMap fun l => l.toList ++ ['\n']

private theorem toList_source (imports : ImportSet) (n : MockNames) (i : Interface) (onHelpers : Bool) :
    (header ++ "\n\n" ++ importBlock imports ++ Code.text (n.code i onHelpers)).toList =
      fileChars imports n i onHelpers := by
  simp only [String.toList_append, Code.text, toList_linesText, fileChars]
  rfl

/-- Whether characters are a well-formed text. -/
def isWellFormed (cs : List Char) : Bool :=
  let cs := Syntax.skipInterpreter cs
  (Syntax.readTokens (cs.length + 1) cs).any fun ts => (Syntax.Reader.file ts).isSome

private theorem isSome_parse (source : String) : (parse source).isSome = isWellFormed source.toList := by
  unfold parse isWellFormed Syntax.tokens
  dsimp only
  generalize Syntax.readTokens _ _ = ts
  cases ts with
  | none => rfl
  | some ts =>
    simp only [Option.bind_eq_bind, Option.bind_some, Option.any_some]
    cases Syntax.Reader.file ts <;> rfl

/-- A package with a trait that has a method with the name of a keyword. -/
def gateFiles : Files.Tree :=
  ⟨[(["gate"], .directory), (["gate", "src"], .directory),
    (["gate", "src", "lib.rs"], .file (Text.encodeUtf8 "trait T \x7b fn r#type(&self); \x7d"))]⟩

def gate : Package := ⟨"gate", ⟨"/gate"⟩, ⟨"/gate/src/lib.rs"⟩, [], ⟨"/gate/src/lib.rs"⟩⟩

def gateResolver : Resolver where
  cwd := ⟨"/gate"⟩
  known? := some [⟨"gate", "gate", .lib, ⟨"/gate"⟩, ⟨"/gate/src/lib.rs"⟩⟩]

/-- The trait, as it is mocked in the root of the package. -/
def gateTrait : Except GenerationError Interface :=
  ((Interface.ofTrait gateFiles gate gate false "T").run.run gateResolver).1

private theorem exists_gate : ∃ i, gateTrait = .ok i ∧
    (i.imports, isWellFormed (fileChars ((ownImports {}).foldl ImportSet.insert i.imports) ⟨"M", "tester"⟩ i true)) =
      (⟨[⟨"super::T", none⟩]⟩, false) :=
  exists_ok_of_map_eq (by decide +kernel)

/-- The text of a mock with helpers is not well-formed where a method has the name of a keyword. -/
theorem keyword_breaks_helper :
    ∃ i text, gateTrait = .ok i ∧ mockSource i "M" { onHelpers := true } = .ok text ∧ parse text = none := by
  obtain ⟨i, htrait, hi⟩ := exists_gate
  obtain ⟨himports, hbroken⟩ := Prod.mk.inj hi
  have hsource := mockSource_eq_ok_iff.mpr
    (⟨by rw [himports]; decide, by rw [himports]; decide, rfl⟩ :
      (∀ x ∈ i.imports.toList, x.name ≠ "M") ∧ KeepsOwn { onHelpers := true } i.imports.toList ∧ _ = _)
  refine ⟨i, _, htrait, hsource, ?_⟩
  have hnone := isSome_parse (header ++ "\n\n" ++
    importBlock ((ownImports { onHelpers := true }).foldl ImportSet.insert i.imports) ++
      Code.text (MockNames.code ⟨"M", "tester"⟩ i true))
  rw [toList_source] at hnone
  exact Option.not_isSome_iff_eq_none.mp (ne_true_of_eq_false (hnone.trans hbroken))

end Keyword

end TraitMock.Generation
