import TraitMock.Testing.Cleanup
import TraitMock.Text.Quoted

namespace TraitMock

/-- What a test declared to expect of its reports. -/
structure Declared where
  error : Bool := false
  fatal : Bool := false
  logEqual? : Option String := none
  logParts : List String := []
  cleanups? : Option Nat := none
  ignoreLogs : Bool := false
  deriving DecidableEq, Repr

/-- A test manager that never fails a test by itself. It records what is reported to it, and compares that with what the
    test declared to expect. -/
structure Spy where
  /-- How often a caller was marked as a helper of the test. -/
  helpers : Nat := 0
  errors : List String := []
  fatals : List String := []
  logs : List String := []
  /-- The cleanups still to be run, in the order of registration. -/
  cleanups : List Cleanup := []
  /-- How many cleanups were ever registered. -/
  registered : Nat := 0
  declared : Declared := {}

namespace Spy

def name : String := "spy"

def helper (s : Spy) : Spy := { s with helpers := s.helpers + 1 }

def error (s : Spy) (message : String) : Spy := { s with errors := s.errors ++ [message] }

def fatal (s : Spy) (message : String) : Spy := { s with fatals := s.fatals ++ [message] }

def log (s : Spy) (message : String) : Spy := { s with logs := s.logs ++ [message] }

def cleanup (s : Spy) (c : Cleanup) : Spy :=
  { s with cleanups := s.cleanups ++ [c], registered := s.registered + 1 }

/-- Reports a text in one of the three ways, or panics with it; a fatal report halts the test. -/
def report (s : Spy) (how : Report) (message : String) : Spy × Option Halt :=
  match how with
  | .log => (s.log message, none)
  | .error => (s.error message, none)
  | .fatal => (s.fatal message, some (.fatal message))
  | .panic => (s, some (.panic (.text message)))

def failed (s : Spy) : Bool := !s.errors.isEmpty || !s.fatals.isEmpty

/-- All failures: first the errors, then the fatal ones. -/
def failures (s : Spy) : List String := s.errors ++ s.fatals

def messages (s : Spy) : String := Text.unlines s.failures

/-- The log, each report on a line of its own. -/
def logText (s : Spy) : String := String.join (s.logs.map (· ++ "\n"))

def expectError (s : Spy) : Spy := { s with declared := { s.declared with error := true } }

/-- Expects a fatal failure, which is an error too. -/
def expectFatal (s : Spy) : Spy := { s with declared := { s.declared with error := true, fatal := true } }

def expectLogEqual (s : Spy) (text : String) : Spy :=
  { s with declared := { s.declared with logEqual? := some text } }

def expectLogPart (s : Spy) (part : String) : Spy :=
  { s with declared := { s.declared with logParts := s.declared.logParts ++ [part] } }

def expectCleanups (s : Spy) (n : Nat) : Spy :=
  { s with declared := { s.declared with cleanups? := some n } }

def ignoreLogs (s : Spy) : Spy := { s with declared := { s.declared with ignoreLogs := true } }

def when_ (condition : Bool) (message : String) : List String := if condition then [message] else []

/-- What is wrong with the failures. -/
def failureMismatches (s : Spy) : List String :=
  when_ (s.declared.error && !s.failed) "expected test to fail, but it passed" ++
  when_ (!s.declared.error && s.failed) ("unexpected test failure:\n" ++ s.messages) ++
  when_ (s.declared.fatal && s.fatals.isEmpty) "expected fatal failure, but none was reported" ++
  when_ (!s.declared.fatal && !s.fatals.isEmpty) ("unexpected fatal failure: " ++ Text.unlines s.fatals)

/-- What is wrong with the log. -/
def logMismatches (s : Spy) : List String :=
  let log := s.logText
  let unequal :=
    match s.declared.logEqual? with
    | some want =>
      when_ (log != want) ("log mismatch:\n  want: " ++ Text.quoted want ++ "\n  have: " ++ Text.quoted log)
    | none => []
  let lacking := s.declared.logParts.flatMap fun part =>
    when_ (!Text.contains log part) ("log does not contain " ++ Text.quoted part ++ ":\n" ++ log)
  let declared := s.declared.logEqual?.isSome || !s.declared.logParts.isEmpty
  let chatter := when_ (!s.declared.ignoreLogs && !declared && log != "") ("unexpected log output:\n" ++ log)
  unequal ++ lacking ++ chatter

/-- What is wrong with the number of cleanups. -/
def cleanupMismatches (s : Spy) : List String :=
  match s.declared.cleanups? with
  | some want =>
    when_ (want != s.registered)
      ("expected " ++ toString want ++ " cleanup(s), " ++ toString s.registered ++ " registered")
  | none => []

/-- Every way in which the reports differ from what was declared. -/
def verify (s : Spy) : List String := s.failureMismatches ++ s.logMismatches ++ s.cleanupMismatches

/-- Panics unless the reports are as declared. -/
def assert (s : Spy) : Except Halt Unit :=
  match s.verify with
  | [] => .ok ()
  | mismatches => .error (.panic (.text ("[spy] " ++ "\n[spy] ".intercalate mismatches)))

end Spy

end TraitMock
