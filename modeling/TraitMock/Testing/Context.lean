import TraitMock.Testing.Spy

namespace TraitMock

/-- The test manager of an ordinary test. It collects errors while the test runs and gives them back, or fails the test
    with them, when the test ends. -/
structure Context where
  name : String
  failed : Bool := false
  errors : List String := []
  cleanups : List Cleanup := []

namespace Context

def error (c : Context) (message : String) : Context :=
  { c with failed := true, errors := c.errors ++ [message] }

/-- Fails and halts the test. The panic carries the message, which is not collected. -/
def fatal (c : Context) (message : String) : Context × Halt :=
  ({ c with failed := true }, .panic (.text message))

def cleanup (c : Context) (cl : Cleanup) : Context := { c with cleanups := c.cleanups ++ [cl] }

/-- Reports a text, or panics with it; what is logged is not kept. -/
def report (c : Context) (how : Report) (message : String) : Context × Option Halt :=
  match how with
  | .log => (c, none)
  | .error => (c.error message, none)
  | .fatal =>
    let (c', halt) := c.fatal message
    (c', some halt)
  | .panic => (c, some (.panic (.text message)))

/-- Reports all that a spy has heard. What is logged is not kept. -/
def hear (c : Context) (spy : Spy) : Context :=
  { c with
    failed := c.failed || spy.failed
    errors := c.errors ++ spy.errors
    cleanups := c.cleanups ++ spy.cleanups }

end Context

end TraitMock
