import TraitMock.Text.Lines

namespace TraitMock.CommandLine

def versionLine : String := "mockkit 0.4.0"

def programHelp : List String :=
  ["Generate expectation-driven mocks for Rust traits", "", "Usage: mockkit [OPTIONS] <COMMAND>", "", "Commands:",
    "  gen    Generate a mock for one trait",
    "  batch  Generate every mock listed in a config file",
    "  help   Print this message or the help of the given subcommand(s)", "", "Options:",
    "  -v, --verbose  Log resolution and generation details",
    "  -h, --help     Print help",
    "  -V, --version  Print version"]

def genHelp : List String :=
  ["Generate a mock for one trait", "",
    "Usage: mockkit gen [OPTIONS] --src <SRC> --dst <DST> --trait <NAME>", "", "Options:",
    "      --src <SRC>            Module holding the trait: a path or a module path like \x60app::store\x60",
    "      --dst <DST>            Module the mock belongs to; the mock is written as its child module",
    "      --trait <NAME>         Trait to mock",
    "  -o, --output <OUTPUT>      Output file, \x60-\x60 for stdout",
    "      --name <NAME>          Name of the mock type (default: <Trait>Mock)",
    "      --on-helpers           Emit \x60on_<method>\x60 helpers registering expectations",
    "      --tester-alias <NAME>  Alias to import the tester module under [env: MOCKKIT_TESTER_ALIAS]",
    "      --variadic-slices      Record the elements of a trailing \x60&[T]\x60 parameter one by one",
    "  -v, --verbose              Log resolution and generation details",
    "  -h, --help                 Print help"]

def batchHelp : List String :=
  ["Generate every mock listed in a config file", "", "Usage: mockkit batch [OPTIONS]", "", "Options:",
    "      --config <CONFIG>  Config file (default: ./mockkit.json)",
    "  -v, --verbose          Log resolution and generation details",
    "  -h, --help             Print help"]

/-- The help about a command, or about the program. -/
def helpLines : Option String → List String
  | some "gen" => genHelp
  | some "batch" => batchHelp
  | _ => programHelp

end TraitMock.CommandLine
