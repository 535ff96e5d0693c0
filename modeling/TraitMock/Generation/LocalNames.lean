import TraitMock.Interface.Method

namespace TraitMock.Generation

/-- Locals of generated code, other than those for returned values. -/
def bodyLocals : List String := ["_args", "_rets", "_f", "_v", "e"]

/-- The local that holds the returned value of a position. -/
def resultLocal (i : Nat) : String := "_r" ++ toString i

/-- Whether a name looks like a local for a returned value: `_r` with digits or nothing behind it. -/
def looksLikeResultLocal (name : String) : Bool :=
  match "_r".toList.isPrefixOf? name.toList with
  | some rest => rest.all Char.isDigit
  | none => false

/-- Whether a parameter cannot keep its name. -/
def clashes (name : String) : Bool := bodyLocals.contains name || looksLikeResultLocal name

/-- A name for the parameter at a position: the first one that is not taken among `_a` with the position and
more and more underscores. -/
def freshName (taken : List String) (i : Nat) : String :=
  let names := (List.range (taken.length + 1)).map fun n => "_a" ++ toString i ++ Text.times n "_"
  (names.find? fun name => !taken.contains name).getD ""

/-- Renames the parameters from position `i` on that cannot keep their names. -/
def renameFrom (taken : List String) (i : Nat) : List Param → List Param
  | [] => []
  | p :: rest =>
    (if clashes p.name then { p with name := freshName taken i } else p) :: renameFrom taken (i + 1) rest

/-- The method with parameters that can stand in generated code. -/
def withFreshNames (m : Method) : Method :=
  { m with params := renameFrom (m.params.map (·.name)) 0 m.params }

end TraitMock.Generation
