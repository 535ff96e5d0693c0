import TraitMock.Mock.Expectation

namespace TraitMock.Selection

/-- An expectation with its number. -/
abbrev Candidate := Nat × Expectation

/-- Compares the pattern of an expectation with actual arguments; without a pattern nothing differs. -/
def diffOf (log : MatchLog) (e : Expectation) (args : Arguments) : Arguments.Diff × MatchLog :=
  match e.comparedWith? with
  | some pattern => Arguments.diff log pattern args
  | none => ({}, log)

/-- Whether an expectation that may be called answers a call before all proxies without a pattern, and the
    log after that was found out. -/
def matches_ (log : MatchLog) (e : Expectation) (args : Arguments) : Bool × MatchLog :=
  if !e.callable then (false, log)
  else if e.acceptsAny then (e.proxy?.isNone, log)
  else match e.comparedWith? with
    | some pattern =>
      let (d, log') := Arguments.diff log pattern args
      (d.isMatch, log')
    | none => (false, log)

def firstMatch (args : Arguments) (log : MatchLog) : List Candidate → Option Nat × MatchLog
  | [] => (none, log)
  | (id, e) :: rest =>
    match matches_ log e args with
    | (true, log') => (some id, log')
    | (false, log') => firstMatch args log' rest

def firstProxy (candidates : List Candidate) : Option Nat :=
  (candidates.find? fun c => c.2.proxy?.isSome && c.2.acceptsAny && c.2.callable).map (·.1)

structure Distance where
  expectation : Expectation
  diff : Arguments.Diff

/-- The candidate with the fewest differences, the first of several; `best` is the best so far. -/
def closest (args : Arguments) (best : Option Distance) (log : MatchLog) :
    List Candidate → Option Distance × MatchLog
  | [] => (best, log)
  | (_, e) :: rest =>
    let (d, log') := diffOf log e args
    let next := match best with
      | none => ⟨e, d⟩
      | some b => if d.failures < b.diff.failures then ⟨e, d⟩ else b
    closest args (some next) log' rest

/-- The arguments of a call for which there is no expectation. -/
def shownArguments (log : MatchLog) (args : Arguments) : String :=
  match args with
  | [] => "(none)"
  | _ => Text.unlines (args.mapIdx fun i v => toString i ++ ": " ++ v.render log)

/-- The failure of a call that no expectation answers. -/
def failure (log : MatchLog) (method : String) (args : Arguments) : Option Distance → Notice
  | some c =>
    if !c.expectation.callable && c.diff.isMatch then c.expectation.tooManyCalls log
    else
      (((Notice.row ⟨Notice.unexpectedCall, [], []⟩ "method" (Arguments.signature method args)).row
        "closest" c.expectation.signature).row "created at" c.expectation.location).row "diff" c.diff.text
  | none =>
    (Notice.row ⟨Notice.callNotFound, [], []⟩ "method" (Arguments.signature method args)).row
      "args" (shownArguments log args)

/-- Picks the expectation that answers a call of `method` with `args`: the first one of the method, in the order of
    registration, that may be called and whose pattern matches, else a proxy without a pattern. If none answers, the
    failure describes the expectation whose pattern is closest to the arguments. -/
def select (log : MatchLog) (expected : List Candidate) (method : String) (args : Arguments) :
    Except Notice Nat × MatchLog :=
  let named := expected.filter fun c => c.2.method == method
  match firstMatch args log named with
  | (some id, log') => (.ok id, log')
  | (none, log') =>
    match firstProxy named with
    | some id => (.ok id, log')
    | none =>
      let (best, log'') := closest args none log' named
      (.error (failure log'' method args best), log'')

end TraitMock.Selection
