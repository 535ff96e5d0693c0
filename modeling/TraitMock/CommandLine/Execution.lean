import TraitMock.CommandLine.Command
import TraitMock.CommandLine.Help
import TraitMock.Generation.Run

namespace TraitMock.CommandLine

open Files (Tree)
open Generation (Generating Output Workspace)

/-- What the program finds when it starts. -/
structure Surroundings where
  files : Tree
  /-- The working directory. -/
  cwd : Path
  tool : BuildTool
  /-- The alias of the tester module that the environment names. -/
  testerAlias : Option String := none
  deriving Repr

/-- What the program leaves behind. -/
structure Outcome where
  status : Nat
  files : Tree
  /-- The standard output. -/
  printed : String := ""
  /-- The messages, each with a line end of its own. -/
  messages : List String := []
  deriving Repr

/-- A message with what lies behind it. -/
def chain (message : String) : Option String → String
  | none => message
  | some cause => message ++ ": " ++ cause

/-- The first part of every message of a command. -/
def speaker (command : String) : String := "mockkit " ++ command ++ ": "

/-- Runs requests on the files, from a directory on. -/
def Surroundings.workspace (s : Surroundings) (dir : Path) : Workspace :=
  { files := s.files, resolver := { cwd := dir, tool := s.tool } }

/-- Generates and writes a mock, and prints the name of its file. -/
def runAndPrint (r : Generation.Request) : Generating Unit := do
  match ← Generation.run r with
  | .file path => Generation.print (path.text ++ "\n")
  | .stdout => pure ()

/-- Generates one mock. -/
def runGen (s : Surroundings) (c : GenCommand) : Outcome :=
  let r := c.request (Config.load s.files s.cwd).shared
  let (result, w) := (runAndPrint r).run.run (s.workspace s.cwd)
  match result with
  | .ok () => { status := 0, files := w.files, printed := w.printed }
  | .error e =>
    let message := "failed to generate a mock for trait " ++ c.traitName ++ ": " ++ chain e.message e.cause?
    { status := 1, files := w.files, printed := w.printed, messages := [speaker "gen" ++ message] }

/-- Generates mocks one after the other; one that fails does not stop the others. Gives the entries that failed,
with their errors. -/
def runEntries (shared : SharedSettings) : List MockEntry → StateM Workspace (List (MockEntry × GenerationError))
  | [] => pure []
  | m :: rest => do
    let result ← (runAndPrint (.ofEntry m shared)).run
    let failed ← runEntries shared rest
    match result with
    | .ok () => pure failed
    | .error e => pure ((m, e) :: failed)

/-- What is said about an entry that failed. -/
def failureMessage (m : MockEntry) (e : GenerationError) : String :=
  speaker "batch" ++ m.traitName ++ " (" ++ m.source ++ "): " ++ e.message

/-- Generates the mocks of a configuration file. Its paths start from the directory of that file. -/
def runBatch (s : Surroundings) (config : Option String) : Outcome :=
  let path := s.cwd.join (config.getD Config.fileName)
  match Config.ofFile s.files path with
  | .error e =>
    { status := 1, files := s.files, messages := [speaker "batch" ++ chain e.message (some e.cause)] }
  | .ok c =>
    let (failed, w) := (runEntries c.shared c.mocks).run (s.workspace (path.parent?.getD ⟨"."⟩))
    let messages := failed.map fun x => failureMessage x.1 x.2
    if failed.isEmpty then { status := 0, files := w.files, printed := w.printed }
    else
      { status := 1, files := w.files, printed := w.printed,
        messages := messages ++ [speaker "batch" ++ toString failed.length ++ " mock(s) failed"] }

/-- What the program says when no command is to be run. A command line that is not well-formed is answered by
help among the messages. -/
def runEnding (s : Surroundings) : Ending → Outcome
  | .misuse => { status := 2, files := s.files, messages := programHelp }
  | .help command => { status := 0, files := s.files, printed := Generation.linesText (helpLines command) }
  | .version => { status := 0, files := s.files, printed := versionLine ++ "\n" }

/-- Runs a command line. -/
def execute (s : Surroundings) (words : List String) : Outcome :=
  match Command.ofWords s.testerAlias words with
  | .ok (.gen c) => runGen s c
  | .ok (.batch config) => runBatch s config
  | .error e => runEnding s e

end TraitMock.CommandLine
