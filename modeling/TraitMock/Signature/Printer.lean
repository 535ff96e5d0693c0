import TraitMock.Signature.Type

namespace TraitMock.Signature

/-- How lifetimes are written. -/
inductive LifetimeStyle where
  /-- As in the trait. -/
  | kept
  /-- Lifetimes that end are left out of references and written `'_` elsewhere, so that a type can stand
  where no lifetime is in scope. -/
  | elided
  deriving DecidableEq, Repr

namespace LifetimeStyle

/-- A lifetime as an argument or a bound. -/
def lifetime (s : LifetimeStyle) (l : String) : String :=
  if s = .elided && l != staticLifetime then "'_" else l

/-- The lifetime of a reference with the blank behind it. -/
def ofReference (s : LifetimeStyle) : Option String → String
  | none => ""
  | some l => if s = .kept || l == staticLifetime then l ++ " " else ""

end LifetimeStyle

/-- The text between the parentheses of a tuple: a single element has a comma behind it. -/
def tupleText (elements : List String) : String :=
  ", ".intercalate elements ++ (if elements.length = 1 then "," else "")

/-- Generic arguments in angle brackets, or nothing if there are none. -/
def argsText (args : List String) : String := if args = [] then "" else "<" ++ ", ".intercalate args ++ ">"

/-- The result of a function behind its arrow, or nothing. -/
def resultText : Option String → String
  | none => ""
  | some r => " -> " ++ r

mutual

def SigType.render (s : LifetimeStyle) : SigType → String
  | .path p args => p ++ argsText (renderArgs s args)
  | .reference l isMutable inner =>
    "&" ++ s.ofReference l ++ (if isMutable then "mut " else "") ++ inner.render s
  | .pointer isMutable inner => (if isMutable then "*mut " else "*const ") ++ inner.render s
  | .array element length => "[" ++ element.render s ++ "; " ++ length ++ "]"
  | .slice element => "[" ++ element.render s ++ "]"
  | .tuple elements => "(" ++ tupleText (renderTypes s elements) ++ ")"
  | .parenthesized inner => "(" ++ inner.render s ++ ")"
  | .dynamic bounds => "dyn " ++ " + ".intercalate (renderBounds s bounds)
  | .abstract bounds => "impl " ++ " + ".intercalate (renderBounds s bounds)
  | .function head params result =>
    head ++ "(" ++ ", ".intercalate (renderTypes s params) ++ ")" ++ resultText (renderResult s result)
  | .never => "!"

def renderTypes (s : LifetimeStyle) : List SigType → List String
  | [] => []
  | t :: rest => t.render s :: renderTypes s rest

def renderResult (s : LifetimeStyle) : Option SigType → Option String
  | none => none
  | some t => some (t.render s)

def GenericArg.render (s : LifetimeStyle) : GenericArg → String
  | .type t => t.render s
  | .lifetime l => s.lifetime l
  | .binding name t => name ++ " = " ++ t.render s
  | .const text => text

def renderArgs (s : LifetimeStyle) : List GenericArg → List String
  | [] => []
  | a :: rest => a.render s :: renderArgs s rest

def Bound.render (s : LifetimeStyle) : Bound → String
  | .trait binder isRelaxed t =>
    (match binder with
      | none => ""
      | some b => b ++ " ") ++ (if isRelaxed then "?" else "") ++ t.render s
  | .lifetime l => s.lifetime l

def renderBounds (s : LifetimeStyle) : List Bound → List String
  | [] => []
  | b :: rest => b.render s :: renderBounds s rest

end

end TraitMock.Signature
