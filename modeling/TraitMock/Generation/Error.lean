import TraitMock.Files.Tree
import TraitMock.Text.Quoted

namespace TraitMock

/-- Why no mock can be written. -/
inductive GenerationError where
  /-- No package or module has this name; the detail is what the build tool had to say. -/
  | unknownPackage (spec : String) (detail : Option String)
  | unknownType (name module : String)
  | unknownTrait (name module : String)
  | unknownMethod (traitName method : String)
  | syntaxError (path : Path)
  | invalidSpec (spec : String)
  | noMethods (traitName : String)
  /-- A path that leaves the crate. -/
  | invalidImport (path module : String)
  | outsidePackage (path : Path)
  | unsupported (what : String)
  | io (path : Path) (fault : Files.Fault)
  deriving DecidableEq, Repr

namespace GenerationError

/-- The detail of an unknown package, if it says something. -/
def detailText : Option String → String
  | none => ""
  | some d => if Text.trim d = "" then "" else ": " ++ Text.trim d

def message : GenerationError → String
  | unknownPackage spec detail => "unknown package " ++ spec ++ detailText detail
  | unknownType name module => "unknown type " ++ name ++ " in " ++ module
  | unknownTrait name module => "unknown trait " ++ name ++ " in " ++ module
  | unknownMethod traitName method => "unknown method " ++ method ++ " in trait " ++ traitName
  | syntaxError path => "failed to parse " ++ path.text ++ ": syntax error"
  | invalidSpec spec => "invalid import spec " ++ Text.quoted spec
  | noMethods traitName => "trait " ++ traitName ++ " has no methods"
  | invalidImport path module => "invalid import " ++ path ++ " in " ++ module
  | outsidePackage path => path.text ++ " is not inside a cargo package"
  | unsupported what => "unsupported: " ++ what
  | io path fault => path.text ++ ": " ++ fault.message

/-- What lies behind an error, where that is an error of its own. -/
def cause? : GenerationError → Option String
  | syntaxError _ => some "syntax error"
  | io _ fault => some fault.message
  | _ => none

end GenerationError

end TraitMock
