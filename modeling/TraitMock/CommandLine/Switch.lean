import TraitMock.Text.Lines

namespace TraitMock.CommandLine

/-- Why a command line names no command to run. -/
inductive Ending where
  /-- It is not well-formed. -/
  | misuse
  /-- It asks for help about a command, or about the program. -/
  | help (command : Option String)
  | version
  deriving DecidableEq, Repr

/-- What a switch asks for. -/
inductive Purpose where
  | flag
  /-- A value, which may be empty or not. -/
  | value (mayBeEmpty : Bool)
  /-- An end of the command line that does not wait for the rest of it. -/
  | ending (e : Ending)
  deriving DecidableEq, Repr

structure Switch where
  long : String
  letter : Option Char := none
  purpose : Purpose
  deriving DecidableEq, Repr

/-- The switches that were read, by their long names, with their values. -/
abbrev Given := List (String × String)

/-- What a word of a command line is. -/
inductive Word where
  | long (name : String) (value : Option String)
  | letters (cs : List Char)
  /-- Two hyphens alone. No switches come after them. -/
  | separator
  | plain
  deriving DecidableEq, Repr

/-- Splits a text at its first equals sign. -/
def splitEquals (cs : List Char) : String × Option String :=
  match cs.dropWhile (· ≠ '=') with
  | [] => (String.ofList cs, none)
  | _ :: value => (String.ofList (cs.takeWhile (· ≠ '=')), some (String.ofList value))

def Word.ofText (s : String) : Word :=
  match s.toList with
  | ['-', '-'] => .separator
  | '-' :: '-' :: rest => .long (splitEquals rest).1 (splitEquals rest).2
  | '-' :: c :: rest => .letters (c :: rest)
  | _ => .plain

/-- Notes a switch with its value. A switch may be given once. -/
def note (given : Given) (s : Switch) (value : String) : Except Ending Given :=
  match s.purpose with
  | .ending e => .error e
  | .value false => if value = "" || (given.lookup s.long).isSome then .error .misuse else .ok ((s.long, value) :: given)
  | _ => if (given.lookup s.long).isSome then .error .misuse else .ok ((s.long, value) :: given)

/-- Whether a switch waits for a value. -/
def Switch.takesValue (s : Switch) : Bool :=
  match s.purpose with
  | .value _ => true
  | _ => false

/-- A text without an equals sign in front. -/
def dropEquals : List Char → List Char
  | '=' :: rest => rest
  | cs => cs

/-- Reads letters behind a hyphen. Gives the switch that still waits for a value, if the last one does. -/
def readLetters (known : List Switch) (given : Given) : List Char → Except Ending (Given × Option Switch)
  | [] => .ok (given, none)
  | c :: rest =>
    match known.find? fun s => s.letter = some c with
    | none => .error .misuse
    | some s =>
      if s.takesValue then
        if rest = [] then .ok (given, some s)
        else do
          let given ← note given s (String.ofList (dropEquals rest))
          pure (given, none)
      else do
        let given ← note given s ""
        readLetters known given rest

/-- Reads a long switch. Gives the switch that still waits for a value. -/
def readLong (known : List Switch) (given : Given) (name : String) (value : Option String) :
    Except Ending (Given × Option Switch) :=
  match known.find? fun s => s.long = name with
  | none => .error .misuse
  | some s =>
    match s.takesValue, value with
    | true, none => .ok (given, some s)
    | false, some _ => .error .misuse
    | _, value => do
      let given ← note given s (value.getD "")
      pure (given, none)

/-- Whether a word can be the value of the switch in front of it. -/
def canBeValue (word : String) : Bool := Word.ofText word == .plain

/-- Reads switches up to the first word that is none, and gives the words from there on. -/
def readSwitches (known : List Switch) (given : Given) : List String → Except Ending (Given × List String)
  | [] => .ok (given, [])
  | word :: rest =>
    let read :=
      match Word.ofText word with
      | .long name value => some (readLong known given name value)
      | .letters cs => some (readLetters known given cs)
      | .separator => none
      | .plain => none
    match read with
    | none =>
      if canBeValue word then .ok (given, word :: rest)
      else if rest = [] then .ok (given, []) else .error .misuse
    | some (.error e) => .error e
    | some (.ok (given, none)) => readSwitches known given rest
    | some (.ok (given, some s)) =>
      match rest with
      | [] => .error .misuse
      | value :: rest =>
        if canBeValue value then
          match note given s value with
          | .error e => .error e
          | .ok given => readSwitches known given rest
        else .error .misuse

end TraitMock.CommandLine
