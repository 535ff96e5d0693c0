import TraitMock.Mock.Session
import TraitMock.Testing.Context

namespace TraitMock

/-- Mocks that report to a test context, with all their expectations. -/
structure ContextSession where
  context : Context
  mocks : List Mock := []
  expectations : List Expectation := []
  log : MatchLog := {}

namespace ContextSession

variable {α : Type}

/-- The same mocks with a spy that has heard nothing. -/
def session (t : ContextSession) : Session := { mocks := t.mocks, expectations := t.expectations, log := t.log }

/-- Does something with the mocks, of which the context hears what they report. -/
def doing (t : ContextSession) (act : Session → Session × α) : ContextSession × α :=
  let (s, a) := act t.session
  (⟨t.context.hear s.spy, s.mocks, s.expectations, s.log⟩, a)

/-- How the cleanups of a context are run. -/
def closing : Closing ContextSession where
  pending t := t.context.cleanups
  clear t := { t with context := { t.context with cleanups := [] } }
  run
    | .audit m, t => ((t.doing (·.audit m)).1, none)
    | .script how text nested, t =>
      let (c, halt) := (nested.foldl Context.cleanup t.context).report how text
      ({ t with context := c }, halt)

/-- Takes the errors that were collected. -/
def collect (t : ContextSession) : ContextSession × List String :=
  ({ t with context := { t.context with errors := [] } }, t.context.errors)

/-- Ends the test: runs the cleanups and gives the collected errors. -/
def finish (t : ContextSession) : ContextSession × Except Halt (List String) :=
  match closing.close t with
  | (t', none) => (t'.collect.1, .ok t'.collect.2)
  | (t', some halt) => (t', .error halt)

/-- Ends the test: runs the cleanups and fails the test if errors were collected. -/
def drop (t : ContextSession) : ContextSession × Except Halt Unit :=
  match closing.close t with
  | (t', none) =>
    match t'.collect with
    | (t'', []) => (t'', .ok ())
    | (t'', errors) => (t'', .error (.panic (.text ("\n\n".intercalate errors))))
  | (t', some halt) => (t', .error halt)

end ContextSession

end TraitMock
