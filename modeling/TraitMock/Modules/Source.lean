import TraitMock.Generation.Error
import TraitMock.Modules.File
import TraitMock.Modules.Import

namespace TraitMock.Modules

open Files (Tree)

/-- A source file that was read. -/
structure Source where
  path : Path
  entries : List Syntax.Entry

/-- Reads a source text. -/
def Source.parse (path : Path) (text : String) : Except GenerationError Source :=
  match Syntax.parse text with
  | some entries => .ok ⟨path, entries⟩
  | none => .error (.syntaxError path)

/-- Reads a source file. -/
def Source.read (files : Tree) (path : Path) : Except GenerationError Source :=
  match files.readText path with
  | .ok text => Source.parse path text
  | .error fault => .error (.io path fault)

/-- A declared module. -/
structure Declaration where
  name : String
  /-- Its file, if it is not written in place. -/
  file? : Option Path
  deriving DecidableEq, Repr

/-- What follows `start`, without the blanks in front. -/
def afterWord? (start : String) (cs : List Char) : Option (List Char) :=
  (start.toList.isPrefixOf? cs).map Text.dropBlanks

/-- The path that an attribute gives to the file of a module. -/
def pathAttribute? (attr : String) : Option String := do
  let inner ← afterWord? "#[" attr.toList
  let value ← afterWord? "path" inner
  let quoted ← afterWord? "=" value
  let text ← "\"".toList.isPrefixOf? quoted
  if text.contains '"' then some (String.ofList (text.takeWhile (· ≠ '"'))) else none

/-- The modules that items declare; `custom?` is the path that attributes in front of them give. -/
def declarationsFrom (files : Tree) (file : Path) (custom? : Option String) :
    List Syntax.Entry → List Declaration
  | [] => []
  | e :: rest =>
    match e.item with
    | .attribute text => declarationsFrom files file ((pathAttribute? text).or custom?) rest
    | .module name inPlace =>
      let place :=
        if inPlace then none
        else
          match custom? with
          | some p => some ((file.parent?.getD ⟨""⟩).join p)
          | none => some (moduleFile files (childDirectory file) name)
      ⟨name, place⟩ :: declarationsFrom files file none rest
    | _ => declarationsFrom files file none rest

/-- The modules that are declared at the top of a file. -/
def Source.declarations (files : Tree) (s : Source) : List Declaration :=
  declarationsFrom files s.path none s.entries

/-- The name of a data type, a trait or a type alias. -/
def typeName? : Syntax.Item → Option String
  | .typeAlias name _ => some name
  | .dataType _ name => some name
  | .trait t => some t.name
  | _ => none

/-- The names of the types and traits that are declared at the top of a file. -/
def Source.typeNames (s : Source) : List String := s.entries.filterMap fun e => typeName? e.item

end TraitMock.Modules
