import TraitMock.Files.Tree
import TraitMock.Json.Decode

namespace TraitMock

open Json (Read readBool readList readOption readPath readString)

/-- Settings that all mocks share. -/
structure SharedSettings where
  /-- The name under which the tester module is imported, if it gets another one. -/
  testerAlias : Option String := none
  onHelpers : Bool := false
  /-- Whether the elements of a last parameter that is a shared slice are recorded one by one. -/
  variadicSlices : Bool := false
  runtimeCrate : String := "mockkit_mock"
  testerPath : String := "mockkit_core::tester"
  deriving DecidableEq, Repr

/-- One mock to write. -/
structure MockEntry where
  source : String := ""
  destination : String := ""
  traitName : String := ""
  /-- The file to write, if it is not the usual one. -/
  output : Option String := none
  /-- The name of the mock, if it is not the usual one. -/
  name : Option String := none
  /-- Whether this mock has `on_` helpers, if that differs from the shared setting. -/
  onHelpers : Option Bool := none
  deriving DecidableEq, Repr

structure Config where
  shared : SharedSettings := {}
  mocks : List MockEntry := []
  deriving DecidableEq, Repr

def SharedSettings.shape : Json.Shape SharedSettings where
  name := "GeneratorConfig"
  fields := ["tester_alias", "on_helpers", "variadic_slices", "runtime_crate", "tester_path"]
  required := []
  read s field j :=
    match field with
    | "tester_alias" => do pure { s with testerAlias := ← readOption readString j }
    | "on_helpers" => do pure { s with onHelpers := ← readBool j }
    | "variadic_slices" => do pure { s with variadicSlices := ← readBool j }
    | "runtime_crate" => do pure { s with runtimeCrate := ← readString j }
    | _ => do pure { s with testerPath := ← readString j }

def MockEntry.shape : Json.Shape MockEntry where
  name := "MockSpec"
  fields := ["src", "dst", "trait", "output", "name", "on_helpers"]
  required := ["src", "dst", "trait"]
  read m field j :=
    match field with
    | "src" => do pure { m with source := ← readString j }
    | "dst" => do pure { m with destination := ← readString j }
    | "trait" => do pure { m with traitName := ← readString j }
    | "output" => do pure { m with output := ← readOption readPath j }
    | "name" => do pure { m with name := ← readOption readString j }
    | _ => do pure { m with onHelpers := ← readOption readBool j }

def Config.shape : Json.Shape Config where
  name := "MockkitConfig"
  fields := ["generator", "mocks"]
  required := []
  read c field j :=
    match field with
    | "generator" => do pure { c with shared := ← SharedSettings.shape.decode {} j }
    | _ => do pure { c with mocks := ← readList (MockEntry.shape.decode {}) j }

/-- Writes a value or nothing. -/
def optionJson (write : α → Json) : Option α → Json
  | some a => write a
  | none => .null

def stringJson (s : String) : Json := .string ⟨s, none⟩

/-- Writes a record. -/
def recordJson (fields : List (String × Json)) : Json := .object (fields.map fun x => (⟨x.1, none⟩, x.2)) none

def SharedSettings.toJson (s : SharedSettings) : Json :=
  recordJson [("tester_alias", optionJson stringJson s.testerAlias), ("on_helpers", .bool s.onHelpers),
    ("variadic_slices", .bool s.variadicSlices), ("runtime_crate", stringJson s.runtimeCrate),
    ("tester_path", stringJson s.testerPath)]

def MockEntry.toJson (m : MockEntry) : Json :=
  recordJson [("src", stringJson m.source), ("dst", stringJson m.destination), ("trait", stringJson m.traitName),
    ("output", optionJson stringJson m.output), ("name", optionJson stringJson m.name),
    ("on_helpers", optionJson .bool m.onHelpers)]

/-- The configuration with every key written out. -/
def Config.toJson (c : Config) : Json :=
  recordJson [("generator", c.shared.toJson), ("mocks", .array (c.mocks.map MockEntry.toJson) none)]

/-- Why there is no configuration. -/
inductive ConfigError where
  | read (path : Path) (fault : Files.Fault)
  | parse (path : Path) (error : Json.Error)
  deriving DecidableEq, Repr

/-- What lies behind an error. -/
def ConfigError.cause : ConfigError → String
  | .read _ fault => fault.message
  | .parse _ error => error.message

def ConfigError.message : ConfigError → String
  | .read path fault => "failed to read " ++ path.text ++ ": " ++ fault.message
  | .parse path error => "failed to parse " ++ path.text ++ ": " ++ error.message

namespace Config

/-- The name of the configuration file. -/
def fileName : String := "mockkit.json"

/-- Reads a configuration from its text. -/
def decode (text : String) : Read Config := (Json.parse text).decode (shape.decode {})

/-- The configuration in a file. -/
def ofFile (files : Files.Tree) (path : Path) : Except ConfigError Config :=
  match files.readText path with
  | .error fault => .error (.read path fault)
  | .ok text =>
    match decode text with
    | .error e => .error (.parse path e)
    | .ok c => .ok c

/-- The configuration of a directory, or the defaults if there is none that can be read. -/
def load (files : Files.Tree) (dir : Path) : Config :=
  match ofFile files (dir.join fileName) with
  | .ok c => c
  | .error _ => {}

end Config

end TraitMock
