import TraitMock.Generation.Helper
import TraitMock.Generation.MethodBody
import TraitMock.Config
import TraitMock.Interface.Basic

namespace TraitMock.Generation

/-- The first line of every generated file. -/
def header : String := "// Code generated by mockkit. DO NOT EDIT."

/-- The import of the tester module. -/
def testerImport (s : SharedSettings) : Import := ⟨s.testerPath, s.testerAlias⟩

/-- The names that the text of a mock uses for itself. -/
structure MockNames where
  mock : String
  /-- The tester module as it is imported. -/
  tester : String
  deriving DecidableEq, Repr

namespace MockNames

/-- The type of a shared tester. -/
def testerType (n : MockNames) : String := "Arc<dyn " ++ n.tester ++ "::TestingT>"

/-- The type of the mock. -/
def typeCode (n : MockNames) (root : String) : List Code :=
  [.blank, .line ("/// Mock implementation of [" ++ Text.ticked root ++ "]."), .line "#[derive(Clone)]"] ++
    Code.braced ("pub struct " ++ n.mock)
      [.line "pub mock: mock::Mock,", .line ("t: " ++ n.testerType ++ ",")]

/-- The function that makes a mock. -/
def newCode (n : MockNames) : List Code :=
  Code.braced ("pub fn new(t: " ++ n.testerType ++ ") -> Self")
    (Code.braced "Self" [.line "mock: mock::Mock::new(t.clone()),", .line "t,"])

/-- The functions of the mock itself: one that makes it, and helpers for the given methods. -/
def ownCode (n : MockNames) (methods : List Method) : List Code :=
  .blank :: Code.braced ("impl " ++ n.mock)
    (n.newCode ++ methods.flatMap fun m => (Helper.ofMethod (withFreshNames m)).code)

/-- How a mock shows itself. -/
def debugCode (n : MockNames) : List Code :=
  .blank :: Code.braced ("impl std::fmt::Debug for " ++ n.mock)
    (Code.braced "fn fmt(&self, f: &mut std::fmt::Formatter<'_>) -> std::fmt::Result"
      [.line ("f.debug_struct(" ++ inQuotes n.mock ++ ").finish_non_exhaustive()")])

/-- Methods with an empty line between them. -/
def methodsCode : List Method → List Code
  | [] => []
  | [m] => methodCode (withFreshNames m)
  | m :: rest => methodCode (withFreshNames m) ++ .blank :: methodsCode rest

/-- The implementation of a trait. -/
def implCode (n : MockNames) (t : TraitImpl) : List Code :=
  let head := (if t.isUnsafe then "unsafe " else "") ++ "impl " ++ t.path ++ " for " ++ n.mock
  .blank :: t.asyncMark.toList.map Code.line ++
    if t.methods.isEmpty then [.line (head ++ " \x7b\x7d")] else Code.braced head (methodsCode t.methods)

/-- All of the mock behind the imports. -/
def code (n : MockNames) (i : Interface) (onHelpers : Bool) : List Code :=
  let root := (i.traits.head?.map (·.path)).getD i.name
  n.typeCode root ++ n.ownCode (if onHelpers then i.methods else []) ++ n.debugCode ++
    i.traits.flatMap n.implCode

end MockNames

/-- The source text of a mock of an interface. An import may not bind the name of the mock, nor a name that
generated code uses. -/
def mockSource (i : Interface) (mockName : String) (s : SharedSettings) : Except GenerationError String :=
  match i.imports.toList.find? fun x => x.name = mockName with
  | some clash => .error (.unsupported ("import " ++ clash.text ++ " shadows the mock type " ++ mockName))
  | none => do
    let imports ← allImports i.imports s.runtimeCrate (testerImport s)
    let names : MockNames := ⟨mockName, (testerImport s).name⟩
    pure (header ++ "\n\n" ++ importBlock imports ++ Code.text (names.code i s.onHelpers))

end TraitMock.Generation
