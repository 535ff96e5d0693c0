import TraitMock.CommandLine.Switch
import TraitMock.Generation.Request

namespace TraitMock.CommandLine

/-- The command that generates one mock. -/
structure GenCommand where
  source : String
  destination : String
  traitName : String
  output : Option String
  name : Option String
  onHelpers : Bool
  testerAlias : Option String
  variadicSlices : Bool
  deriving DecidableEq, Repr

inductive Command where
  | gen (c : GenCommand)
  /-- Generates the mocks of a configuration file. -/
  | batch (config : Option String)
  deriving DecidableEq, Repr

/-- The switch that asks for a log. It is accepted anywhere; the log is not part of what a command answers. -/
def verbose : Switch := ⟨"verbose", some 'v', .flag⟩

/-- The switch that asks for help about a command. -/
def help (command : Option String) : Switch := ⟨"help", some 'h', .ending (.help command)⟩

/-- The switches in front of a command. -/
def programSwitches : List Switch := [verbose, help none, ⟨"version", some 'V', .ending .version⟩]

def genSwitches : List Switch :=
  [⟨"src", none, .value true⟩, ⟨"dst", none, .value true⟩, ⟨"trait", none, .value true⟩,
    ⟨"output", some 'o', .value false⟩, ⟨"name", none, .value true⟩, ⟨"on-helpers", none, .flag⟩,
    ⟨"tester-alias", none, .value true⟩, ⟨"variadic-slices", none, .flag⟩, verbose, help (some "gen")]

def batchSwitches : List Switch := [⟨"config", none, .value false⟩, verbose, help (some "batch")]

/-- The commands that help can be asked about. -/
def commandNames : List String := ["gen", "batch", "help"]

/-- Reads the switches of a command. Other words may not follow it. -/
def readAll (known : List Switch) (words : List String) : Except Ending Given := do
  match ← readSwitches known [] words with
  | (given, []) => pure given
  | (_, _ :: _) => .error .misuse

/-- Reads the command that generates one mock. The source, the destination and the trait must be given; the alias
may be given by the surroundings. -/
def readGen (testerAlias? : Option String) (words : List String) : Except Ending Command := do
  let given ← readAll genSwitches words
  match given.lookup "src", given.lookup "dst", given.lookup "trait" with
  | some source, some destination, some traitName =>
    pure (.gen {
      source := source, destination := destination, traitName := traitName,
      output := given.lookup "output", name := given.lookup "name",
      onHelpers := (given.lookup "on-helpers").isSome,
      testerAlias := (given.lookup "tester-alias").or testerAlias?,
      variadicSlices := (given.lookup "variadic-slices").isSome })
  | _, _, _ => .error .misuse

def readBatch (words : List String) : Except Ending Command := do
  let given ← readAll batchSwitches words
  pure (.batch (given.lookup "config"))

/-- Reads a question for help about commands that are named. -/
def readHelp : List String → Ending
  | [] => .help none
  | [name] => if commandNames.contains name then .help (some name) else .misuse
  | _ => .misuse

/-- The command that a command line gives. -/
def Command.ofWords (testerAlias? : Option String) (words : List String) : Except Ending Command := do
  match ← readSwitches programSwitches [] words with
  | (_, "gen" :: rest) => readGen testerAlias? rest
  | (_, "batch" :: rest) => readBatch rest
  | (_, "help" :: rest) => .error (readHelp rest)
  | _ => .error .misuse

/-- The request that a command stands for, with the settings of a configuration behind its switches. -/
def GenCommand.request (c : GenCommand) (shared : SharedSettings) : Generation.Request where
  source := c.source
  destination := c.destination
  traitName := c.traitName
  name := c.name
  output := c.output
  settings := { shared with
    onHelpers := c.onHelpers || shared.onHelpers
    variadicSlices := c.variadicSlices || shared.variadicSlices
    testerAlias := c.testerAlias.or shared.testerAlias }

end TraitMock.CommandLine
