import TraitMock.Signature.Lowering
import TraitMock.Signature.Printer
import TraitMock.Syntax.Item

namespace TraitMock

open Modules (Scope)
open Signature (Capture LifetimeStyle Lowering SigType lowerType refuse)
open Syntax (MethodDecl ParamDecl)

/-- A parameter of a method, other than the one that it is called by. -/
structure Param where
  name : String
  /-- Whether the trait gives no name that a mock can use, so that one was made up. -/
  isAnonymous : Bool
  type : SigType

def Param.capture (p : Param) : Capture := p.type.capture

structure Method where
  name : String
  /-- The trait as it is named below the destination. -/
  traitPath : String
  /-- The words in front of `fn`. -/
  modifiers : Option String
  /-- The lifetime parameters in their angle brackets. -/
  lifetimes : Option String
  /-- The parameter that the method is called by, as it is written. -/
  receiver : String
  params : List Param
  /-- The type of the result, if it is not the empty tuple. -/
  result : Option SigType
  whereClause : Option String
  /-- Whether the elements of the last parameter are recorded one by one. -/
  isVariadic : Bool

/-- A text and a blank behind it, or nothing. -/
def withBlank : Option String → String
  | none => ""
  | some s => s ++ " "

namespace Method

def isAsync (m : Method) : Bool :=
  match m.modifiers with
  | none => false
  | some text => (Text.words text).contains "async"

/-- The types of the values that a mock returns: the elements of a tuple, and any other type by itself. -/
def returns (m : Method) : List SigType :=
  match m.result with
  | none => []
  | some (.tuple elements) => elements
  | some t => [t]

/-- The type of the elements of a reference to a slice. -/
def elementOf : SigType → Option SigType
  | .reference _ _ (.slice element) => some element
  | _ => none

/-- The type of the elements of the last parameter, if they are recorded one by one. -/
def variadicElement? (m : Method) : Option SigType :=
  if m.isVariadic then (m.params.getLast?).bind fun p => elementOf p.type else none

/-- Whether a function of the arguments may produce what is returned: only if every parameter has a type that
can be named. -/
def forwards (m : Method) : Bool := m.params.all fun p => !p.type.hasAbstract

/-- The type of a function that produces a returned value of type `t`. -/
def producerType (m : Method) (t : SigType) : String :=
  "dyn Fn(" ++ ", ".intercalate (m.params.map fun p => p.type.render .elided) ++ ") -> " ++ t.render .elided ++
    " + Send + Sync"

/-- A parameter as it is declared. -/
def declaration (p : Param) : String := ", " ++ p.name ++ ": " ++ p.type.render .kept

/-- The head of the method as a mock declares it. -/
def signature (m : Method) : String :=
  withBlank m.modifiers ++ "fn " ++ m.name ++ m.lifetimes.getD "" ++
    "(" ++ m.receiver ++ String.join (m.params.map declaration) ++ ")" ++
    Signature.resultText (m.result.map (SigType.render .kept)) ++
    (match m.whereClause with
      | none => ""
      | some w => " " ++ w)

/-- What was read of a list of parameters. -/
structure Params where
  receiver : Option String := none
  /-- The other parameters so far. -/
  others : List Param := []

/-- A parameter of the given type, with the name that it is given. -/
def Params.add (ps : Params) (name : Option String) (t : SigType) : Params :=
  { ps with others := ps.others ++ [⟨name.getD ("_a" ++ toString ps.others.length), name.isNone, t⟩] }

/-- The name of a parameter, if its pattern is one. -/
def nameOf : Syntax.ParamPattern → Option String
  | .name s => some s
  | _ => none

/-- Whether a pattern names the parameter that a method is called by. -/
def isSelf : Syntax.ParamPattern → Bool
  | .self => true
  | _ => false

/-- Reads the parameters of the method that messages call `label`. -/
def lowerParams (s : Scope) (dst : Package) (label : String) (ps : Params) : List ParamDecl → Lowering Params
  | [] => pure ps
  | .receiver text :: rest => lowerParams s dst label { ps with receiver := some text } rest
  | .variadic :: _ => refuse ("C variadic method " ++ label)
  | .typed pattern t text :: rest => do
    if isSelf pattern && ps.receiver.isNone && ps.others.isEmpty then
      lowerParams s dst label { ps with receiver := some text } rest
    else
      let t ← lowerType s dst t
      lowerParams s dst label (ps.add (nameOf pattern) t) rest
  | .bare t :: rest => do
    let t ← lowerType s dst t
    lowerParams s dst label (ps.add none t) rest

/-- Reads the type of a result. A mock hands out values that it owns, so nothing borrowed can be returned, and
nothing of a type without a name or without values. -/
def lowerResult (s : Scope) (dst : Package) (label : String) (result : Option Syntax.TypeExpr) :
    Lowering (Option SigType) := do
  match result with
  | none => pure none
  | some r =>
    let t ← lowerType s dst r
    if t.hasAbstract || t.borrowsOutsideFunctions || t.isNever then
      refuse ("return type " ++ t.render .kept ++ " of " ++ label)
    else pure (if t.isUnit then none else some t)

/-- Whether the last of some parameters is a shared slice. -/
def endsInSlice (ps : List Param) : Bool :=
  match ps.getLast? with
  | some ⟨_, _, .reference _ false inner⟩ => inner.isSlice
  | _ => false

/-- Reads a method of the trait that is named `traitPath` below the destination. -/
def lower (s : Scope) (dst : Package) (variadicSlices : Bool) (traitPath : String) (d : MethodDecl) :
    Lowering Method := do
  let label := Text.joinPath [traitPath, d.name]
  if (Text.words (d.modifiers.getD "")).contains "const" then refuse ("const method " ++ label)
  else
    match d.generics.filter fun g => !g.lifetimesOnly with
    | some g => refuse ("generic method " ++ label ++ g.text)
    | none =>
      let ps ← lowerParams s dst label {} d.params
      match ps.receiver with
      | none => refuse ("method " ++ label ++ " has no self receiver")
      | some receiver =>
        let result ← lowerResult s dst label d.result
        pure {
          name := d.name, traitPath := traitPath, modifiers := d.modifiers,
          lifetimes := d.generics.map (·.text), receiver := receiver, params := ps.others, result := result,
          whereClause := d.whereClause, isVariadic := variadicSlices && endsInSlice ps.others }

end Method

end TraitMock
