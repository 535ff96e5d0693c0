import TraitMock.Generation.Code
import TraitMock.Generation.LocalNames

namespace TraitMock.Generation

/-- A helper: it takes one value for each parameter of the method, and any number of values for the elements of
a parameter that are recorded one by one. -/
structure Helper where
  /-- The method that it registers expectations of. -/
  method : String
  /-- The parameters that take one value each. -/
  values : List String
  /-- The parameter that takes the values of elements. -/
  elements : Option String
  deriving DecidableEq, Repr

namespace Helper

/-- The helper of a method. -/
def ofMethod (m : Method) : Helper :=
  let names := m.params.map (·.name)
  if m.isVariadic then ⟨m.name, names.dropLast, names.getLast?⟩ else ⟨m.name, names, none⟩

/-- The parameters as they are declared. -/
def params (h : Helper) : List String :=
  "&self" :: h.values.map (· ++ ": impl mock::IntoValue") ++
    h.elements.toList.map (· ++ ": Vec<mock::Value>")

/-- The expectation of a call with the given arguments. -/
def expectation (h : Helper) (args : String) : Code :=
  .line ("self.mock.on(" ++ inQuotes h.method ++ ", mock::Arguments::" ++ args ++ ")")

def body (h : Helper) : List Code :=
  let values := commas (h.values.map fun x => "mock::IntoValue::into_value(" ++ x ++ ")")
  match h.elements with
  | some rest =>
    [.line ("let mut _args = vec![" ++ values ++ "];"), .line ("_args.extend(" ++ rest ++ ");"),
      h.expectation "from(_args)"]
  | none => [h.expectation (if h.values.isEmpty then "new()" else "from(vec![" ++ values ++ "])")]

def code (h : Helper) : List Code :=
  [.blank, .line "#[track_caller]"] ++
    Code.braced ("pub fn on_" ++ h.method ++ "(" ++ commas h.params ++ ") -> mock::Call") h.body

end Helper

end TraitMock.Generation
