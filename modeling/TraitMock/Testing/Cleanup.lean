import TraitMock.Value.Observed

namespace TraitMock

/-- Why a test was halted. -/
inductive Halt where
  | panic (payload : PanicPayload)
  /-- A failure that allows no going on was reported. -/
  | fatal (message : String)
  deriving DecidableEq, Repr

/-- How a cleanup ends: it reports its text, or it panics with it. -/
inductive Report where
  | log
  | error
  | fatal
  | panic
  deriving DecidableEq, Repr

inductive Cleanup where
  | audit (mock : Nat)
  /-- Registers further cleanups, then reports a text or panics with it. -/
  | script (report : Report) (text : String) (nested : List Cleanup)

namespace Cleanup

mutual

/-- How many cleanups there are in all, with those that a cleanup registers. -/
def size : Cleanup → Nat
  | .audit _ => 1
  | .script _ _ nested => 1 + sizeAll nested

def sizeAll : List Cleanup → Nat
  | [] => 0
  | c :: rest => c.size + sizeAll rest

end

end Cleanup

/-- How the cleanups of a test manager with states in `σ` are run. -/
structure Closing (σ : Type) where
  /-- The cleanups registered, the first one first. -/
  pending : σ → List Cleanup
  /-- Forgets the cleanups registered. -/
  clear : σ → σ
  run : Cleanup → σ → σ × Option Halt

namespace Closing

variable {σ : Type} (m : Closing σ)

/-- Runs several cleanups one after the other, until one halts the test. -/
def batch : List Cleanup → σ → σ × Option Halt
  | [], s => (s, none)
  | c :: rest, s =>
    match m.run c s with
    | (s', none) => batch rest s'
    | (s', some halt) => (s', some halt)

/-- At most `rounds` times takes all cleanups that are registered and runs them, the last one first. -/
def rounds : Nat → σ → σ × Option Halt
  | 0, s => (s, none)
  | n + 1, s =>
    match m.pending s with
    | [] => (s, none)
    | pending =>
      match m.batch pending.reverse (m.clear s) with
      | (s', none) => rounds n s'
      | (s', some halt) => (s', some halt)

/-- Runs cleanups until none is left. Every round uses up at least one of the cleanups that are there in all,
    so there are no more rounds than these. -/
def close (s : σ) : σ × Option Halt := m.rounds (Cleanup.sizeAll (m.pending s)) s

end Closing

end TraitMock
