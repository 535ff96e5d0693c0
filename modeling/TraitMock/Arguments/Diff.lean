import TraitMock.Value.Basic

namespace TraitMock

/-- The arguments of a call, or the values that it returns. -/
abbrev Arguments := List Value

/-- Whether an actual argument is one that was expected. -/
def Value.admits : Value → Value → Bool
  | .wildcard, _ => true
  | .matcher m, have_ => m.accepts have_
  | want, have_ => want.deepEqual have_

/-- The log after an expected argument was compared with an actual one. -/
def Value.notedAdmits (log : MatchLog) : Value → Value → MatchLog
  | .matcher m, have_ => m.noted have_ log
  | _, _ => log

namespace Arguments

/-- One position of a comparison: the texts of both sides and whether they agree. -/
structure DiffLine where
  index : Nat
  agrees : Bool
  want : String
  have_ : String
  deriving DecidableEq, Repr

/-- The line as it is shown. -/
def DiffLine.text (l : DiffLine) : String :=
  if l.agrees then toString l.index ++ ": PASS: " ++ l.want ++ " == " ++ l.have_
  else toString l.index ++ ": FAIL: " ++ l.want ++ " != " ++ l.have_

/-- A comparison of expected with actual arguments, one line for each position of the longer list. -/
structure Diff where
  lines : List DiffLine := []
  deriving DecidableEq, Repr

/-- How many positions do not agree. -/
def Diff.failures (d : Diff) : Nat := d.lines.countP fun l => !l.agrees

/-- Whether all positions agree. -/
def Diff.isMatch (d : Diff) : Bool := d.failures == 0

def Diff.text (d : Diff) : String := "\n".intercalate (d.lines.map DiffLine.text)

/-- What stands for a position that one side does not have. -/
def missing : String := "(Missing)"

/-- The lines from position `index` on. A position is shown after it was compared, so that a matcher shows
    what became of that comparison. -/
def diffLines (log : MatchLog) (index : Nat) : Arguments → Arguments → List DiffLine × MatchLog
  | [], [] => ([], log)
  | [], have_ :: actual =>
    let rest := diffLines log (index + 1) [] actual
    (⟨index, false, missing, have_.render log⟩ :: rest.1, rest.2)
  | want :: expected, [] =>
    let rest := diffLines log (index + 1) expected []
    (⟨index, false, want.render log, missing⟩ :: rest.1, rest.2)
  | want :: expected, have_ :: actual =>
    let log' := want.notedAdmits log have_
    let rest := diffLines log' (index + 1) expected actual
    (⟨index, want.admits have_, want.render log', have_.render log'⟩ :: rest.1, rest.2)

/-- Compares expected arguments with actual ones. -/
def diff (log : MatchLog) (expected actual : Arguments) : Diff × MatchLog :=
  let r := diffLines log 0 expected actual
  (⟨r.1⟩, r.2)

/-- The short type names, as a signature shows them. -/
def typeNames (args : Arguments) : List String := args.map Value.typeName

/-- A method with the types of its arguments. -/
def signature (method : String) (args : Arguments) : String :=
  method ++ "(" ++ ", ".intercalate args.typeNames ++ ")"

/-- The arguments as they are shown in messages. -/
def render (log : MatchLog) (args : Arguments) : List String := args.map (Value.render log)

/-- The position of the first function. -/
def functionAt? (args : Arguments) : Option Nat := args.findIdx? Value.isFunction

end Arguments

end TraitMock
