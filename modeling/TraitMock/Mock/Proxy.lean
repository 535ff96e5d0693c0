import TraitMock.Arguments.Access

namespace TraitMock

/-- A function that answers the calls of a method in the place of fixed return values. It is given its arguments only
    when there are as many as it has parameters and each has the type of its parameter. -/
structure ProxyFunction where
  /-- The qualified name of the function's own type, which ends in its name. -/
  typeName : String
  params : List Wanted
  /-- The type of each further argument, for a function that collects them. -/
  rest? : Option Wanted := none
  /-- What the function does with the values of its parameters and the further ones behind them. It may keep a
      state of its own, so the number of its earlier calls comes first. -/
  run : Nat → MatchLog → Arguments → Except PanicPayload Arguments

/-- A function together with the method it answers, if it has a name. -/
structure Proxy where
  name? : Option String
  function : ProxyFunction

/-- Why a proxy could not pass arguments on. -/
inductive ProxyError where
  | argument (e : ArgumentError)
  | wrongType (index : Nat) (found wanted : String)
  | wrongCount (atLeast : Bool) (wanted found : Nat)
  deriving DecidableEq, Repr

def ProxyError.message : ProxyError → String
  | .argument e => e.message
  | .wrongType index found wanted =>
    "[mock] proxy: argument " ++ toString index ++ " is of type \"" ++ found ++ "\" not \"" ++ wanted ++ "\""
  | .wrongCount atLeast wanted found =>
    "[mock] proxy: want " ++ (if atLeast then "at least " else "") ++ toString wanted ++ " arguments have " ++
      toString found

namespace ProxyFunction

/-- The last segment of a function's type name. A closure has no name, nor has a function whose type name
    holds a parenthesis. -/
def methodName? (typeName : String) : Option String :=
  if Text.contains typeName "\x7b\x7bclosure\x7d\x7d" || Text.contains typeName "(" then none
  else some (Text.lastSegment typeName)

/-- The argument at `i` at the type of a parameter. -/
def argument (args : Arguments) (i : Nat) (wanted : Wanted) : Except ProxyError Value :=
  match args.get i with
  | .error e => .error (.argument e)
  | .ok v =>
    match wanted.read? v with
    | some r => .ok r
    | none => .error (.wrongType i v.typeName wanted.shortName)

/-- The arguments from position `i` on, one for each parameter. -/
def leading (args : Arguments) (i : Nat) : List Wanted → Except ProxyError Arguments
  | [] => .ok []
  | w :: ws => do
    let v ← argument args i w
    let vs ← leading args (i + 1) ws
    pure (v :: vs)

def accept (f : ProxyFunction) (args : Arguments) : Except ProxyError Arguments := do
  let front ← leading args 0 f.params
  match f.rest? with
  | none =>
    if args.length ≠ f.params.length then .error (.wrongCount false f.params.length args.length)
    else pure front
  | some w =>
    if args.length < f.params.length then .error (.wrongCount true f.params.length args.length)
    else
      let back ← leading args f.params.length (List.replicate (args.length - f.params.length) w)
      pure (front ++ back)

end ProxyFunction

namespace Proxy

/-- A proxy named after its function. -/
def ofFunction (f : ProxyFunction) : Proxy := ⟨ProxyFunction.methodName? f.typeName, f⟩

def named (p : Proxy) (name : String) : Proxy := { p with name? := some name }

/-- The name and the types of the parameters. -/
def signature (p : Proxy) : String :=
  let rest := match p.function.rest? with
    | some w => ["..." ++ w.shortName]
    | none => []
  p.name?.getD "<unnamed>" ++
    "(" ++ ", ".intercalate (p.function.params.map Wanted.shortName ++ rest) ++ ")"

def debug (p : Proxy) : String := "Proxy(" ++ p.signature ++ ")"

/-- Calls the function, or panics without calling it. -/
def call (p : Proxy) (turn : Nat) (log : MatchLog) (args : Arguments) : Except PanicPayload Arguments :=
  match p.function.accept args with
  | .ok values => p.function.run turn log values
  | .error e => .error (.text e.message)

end Proxy

end TraitMock
