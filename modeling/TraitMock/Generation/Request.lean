import TraitMock.Config

namespace TraitMock.Generation

/-- What mock to write, and how. -/
structure Request where
  /-- The module that holds the trait: a path or a module path. -/
  source : String
  /-- The module that the mock becomes a child of. -/
  destination : String
  traitName : String
  /-- The name of the mock, if it is not the usual one. -/
  name : Option String := none
  /-- The file to write; a hyphen stands for the standard output. -/
  output : Option String := none
  settings : SharedSettings := {}
  deriving DecidableEq, Repr

/-- The request that an entry of a configuration stands for. -/
def Request.ofEntry (m : MockEntry) (shared : SharedSettings) : Request where
  source := m.source
  destination := m.destination
  traitName := m.traitName
  name := m.name
  output := m.output
  settings := { shared with onHelpers := m.onHelpers.getD shared.onHelpers }

/-- The name of the mock. -/
def Request.mockName (r : Request) : String := r.name.getD (r.traitName ++ "Mock")

end TraitMock.Generation
