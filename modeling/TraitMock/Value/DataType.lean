import TraitMock.Decimal.Shortest
import TraitMock.Text.Quoted
import TraitMock.Value.Payload
import TraitMock.Value.TypeName

namespace TraitMock

/-- A type of data. Two types are the same when their names are. -/
structure DataType where
  name : String
  written : Payload → Written
  /-- Whether the type's values have a written form; `written` is used only of types that do. -/
  printable : Bool := true
  cloneable : Bool := true
  /-- The type's own equality, if it has one. -/
  equal? : Option (Payload → Payload → Bool) := none
  /-- The value a type stands for when nothing is given. -/
  default? : Option Payload := none

namespace DataType

/-- The name without module paths. -/
def shortName (t : DataType) : String := TypeName.short t.name

/-- The written form of content that does not belong to the type it is read at. -/
def foreign : Written := .leaf "?"

/-- Puts an equality of parts in the place of an equality of lists of parts. -/
def allEqual (eq : Payload → Payload → Bool) : List Payload → List Payload → Bool
  | [], [] => true
  | a :: as, b :: bs => eq a b && allEqual eq as bs
  | _, _ => false

/-- The equality of lists whose parts have each its own type. -/
def eachEqual : List (Payload → Payload → Bool) → List Payload → List Payload → Bool
  | [], [], [] => true
  | eq :: eqs, a :: as, b :: bs => eq a b && eachEqual eqs as bs
  | _, _, _ => false

/-- The written forms of parts that have each its own type. -/
def eachWritten : List DataType → List Payload → List Written
  | t :: ts, p :: ps => t.written p :: eachWritten ts ps
  | _, _ => []

/-- The equalities of several types, if all have one. -/
def equalities? (ts : List DataType) : Option (List (Payload → Payload → Bool)) :=
  ts.mapM (·.equal?)

/-- The defaults of several types, if all have one. -/
def defaults? (ts : List DataType) : Option (List Payload) := ts.mapM (·.default?)

/-- The equality of whole numbers, truth values, characters and texts. -/
def plainEqual : Payload → Payload → Bool
  | .unit, .unit => true
  | .bool a, .bool b => a == b
  | .char a, .char b => a == b
  | .int a, .int b => a == b
  | .text a, .text b => a == b
  | _, _ => false

def unit : DataType where
  name := "()"
  written _ := .leaf "()"
  equal? := some plainEqual
  default? := some .unit

def bool : DataType where
  name := "bool"
  written
    | .bool b => .leaf (if b then "true" else "false")
    | _ => foreign
  equal? := some plainEqual
  default? := some (.bool false)

def char : DataType where
  name := "char"
  written
    | .char c => .leaf (Text.quotedChar c)
    | _ => foreign
  equal? := some plainEqual
  default? := some (.char '\x00')

/-- A type of whole numbers. -/
def int (name : String) : DataType where
  name := name
  written
    | .int n => .leaf (toString n)
    | _ => foreign
  equal? := some plainEqual
  default? := some (.int 0)

/-- Floating-point numbers of 64 bits; a number that is none differs from itself. -/
def float : DataType where
  name := "f64"
  written
    | .float x => .leaf ((Decimal.Number.ofFloat x).write Decimal.plain)
    | _ => foreign
  equal? := some fun
    | .float a, .float b => a == b
    | _, _ => false
  default? := some (.float 0)

/-- Floating-point numbers of 32 bits. -/
def float32 : DataType where
  name := "f32"
  written
    | .float32 x => .leaf ((Decimal.Number.ofFloat32 x).write Decimal.plain)
    | _ => foreign
  equal? := some fun
    | .float32 a, .float32 b => a == b
    | _, _ => false
  default? := some (.float32 0)

def text : DataType where
  name := "alloc::string::String"
  written
    | .text s => .leaf (Text.quoted s)
    | _ => foreign
  equal? := some plainEqual
  default? := some (.text "")

/-- The equality of sequences. -/
def sequenceEqual (eq : Payload → Payload → Bool) : Payload → Payload → Bool
  | .parts as, .parts bs => allEqual eq as bs
  | _, _ => false

/-- Sequences of any length. -/
def vec (t : DataType) : DataType where
  name := "alloc::vec::Vec<" ++ t.name ++ ">"
  written
    | .parts ps => .sequence (ps.map t.written)
    | _ => foreign
  printable := t.printable
  cloneable := t.cloneable
  equal? := t.equal?.map sequenceEqual
  default? := some (.parts [])

/-- Sequences of a fixed length. -/
def array (t : DataType) (length : Nat) : DataType where
  name := "[" ++ t.name ++ "; " ++ toString length ++ "]"
  written
    | .parts ps => .sequence (ps.map t.written)
    | _ => foreign
  printable := t.printable
  cloneable := t.cloneable
  equal? := t.equal?.map sequenceEqual
  default? := t.default?.map fun d => .parts (List.replicate length d)

/-- Content on the heap, which shows only its content. -/
def box (t : DataType) : DataType := { t with name := "alloc::boxed::Box<" ++ t.name ++ ">" }

/-- The equality of a value that may be missing. -/
def optionEqual (eq : Payload → Payload → Bool) : Payload → Payload → Bool
  | .choice "None" [], .choice "None" [] => true
  | .choice "Some" [a], .choice "Some" [b] => eq a b
  | _, _ => false

/-- A value that may be missing. -/
def option (t : DataType) : DataType where
  name := "core::option::Option<" ++ t.name ++ ">"
  written
    | .choice "Some" [p] => .call "Some" [t.written p]
    | .choice "None" [] => .leaf "None"
    | _ => foreign
  printable := t.printable
  cloneable := t.cloneable
  equal? := t.equal?.map optionEqual
  default? := some (.choice "None" [])

/-- The equality of outcomes. -/
def resultEqual (okEq errEq : Payload → Payload → Bool) : Payload → Payload → Bool
  | .choice "Ok" [a], .choice "Ok" [b] => okEq a b
  | .choice "Err" [a], .choice "Err" [b] => errEq a b
  | _, _ => false

/-- A value or the reason why there is none. -/
def result (ok err : DataType) : DataType where
  name := "core::result::Result<" ++ ok.name ++ ", " ++ err.name ++ ">"
  written
    | .choice "Ok" [p] => .call "Ok" [ok.written p]
    | .choice "Err" [p] => .call "Err" [err.written p]
    | _ => foreign
  printable := ok.printable && err.printable
  cloneable := ok.cloneable && err.cloneable
  equal? := do
    let okEq ← ok.equal?
    let errEq ← err.equal?
    pure (resultEqual okEq errEq)

/-- The equality of tuples and records. -/
def partsEqual (eqs : List (Payload → Payload → Bool)) : Payload → Payload → Bool
  | .parts as, .parts bs => eachEqual eqs as bs
  | _, _ => false

/-- Tuples of one or more parts. -/
def tuple (ts : List DataType) : DataType where
  name :=
    let names := ", ".intercalate (ts.map (·.name))
    "(" ++ names ++ (if ts.length == 1 then ",)" else ")")
  written
    | .parts ps => .tuple (eachWritten ts ps)
    | _ => foreign
  printable := ts.all (·.printable)
  cloneable := ts.all (·.cloneable)
  equal? := (equalities? ts).map partsEqual
  default? := (defaults? ts).map .parts

/-- The equality of maps whose entries stand in the order of their keys. -/
def entriesEqual (keyEq valueEq : Payload → Payload → Bool) : Payload → Payload → Bool
  | .parts as, .parts bs => allEqual (partsEqual [keyEq, valueEq]) as bs
  | _, _ => false

/-- A map under the given name. Its entries are pairs in the order of their keys. -/
def map (name : String) (key value : DataType) : DataType where
  name := name ++ "<" ++ key.name ++ ", " ++ value.name ++ ">"
  written
    | .parts entries => .set (entries.map fun
        | .parts [k, v] => .labelled (key.written k).compact (value.written v)
        | _ => foreign)
    | _ => foreign
  printable := key.printable && value.printable
  cloneable := key.cloneable && value.cloneable
  equal? := do
    let keyEq ← key.equal?
    let valueEq ← value.equal?
    pure (entriesEqual keyEq valueEq)
  default? := some (.parts [])

/-- Maps that list their entries in the order of the keys. -/
def orderedMap (key value : DataType) : DataType :=
  map "alloc::collections::btree::map::BTreeMap" key value

/-- Maps without an order of their own. -/
def hashMap (key value : DataType) : DataType :=
  map "std::collections::hash::map::HashMap" key value

/-- Sets without an order of their own; the members stand in ascending order. -/
def hashSet (t : DataType) : DataType where
  name := "std::collections::hash::set::HashSet<" ++ t.name ++ ">"
  written
    | .parts ps => .set (ps.map t.written)
    | _ => foreign
  printable := t.printable
  cloneable := t.cloneable
  equal? := t.equal?.map sequenceEqual
  default? := some (.parts [])

/-- The equality of shared contents: addresses do not count. -/
def sharedEqual (eq : Payload → Payload → Bool) : Payload → Payload → Bool
  | .shared _ a, .shared _ b => eq a b
  | _, _ => false

/-- Content that several owners share. -/
def shared (t : DataType) : DataType where
  name := "alloc::sync::Arc<" ++ t.name ++ ">"
  written
    | .shared _ p => t.written p
    | _ => foreign
  printable := t.printable
  equal? := t.equal?.map sharedEqual

/-- Errors of any kind; they show the error they hold. -/
def error : DataType where
  name := "mockkit_mock::value::ErrorValue"
  written
    | .error e => e.head.written
    | _ => foreign

/-- Stand-ins for data that cannot be recorded, each holding the name of the type it stands for. -/
def placeholder : DataType where
  name := "mockkit_mock::value::Opaque"
  written
    | .text s => .call "Opaque" [.leaf (Text.quoted s)]
    | _ => foreign
  equal? := some plainEqual

/-- Pointers to functions of a type, which show nothing but an address. -/
def functionPointer (type : String) : DataType where
  name := type
  written _ := .leaf "<address>"

/-- Records with named fields. `capable` says which of writing, copying and comparing the type offers. -/
def record (name : String) (fields : List (String × DataType)) (printable cloneable comparable : Bool) :
    DataType where
  name := name
  written
    | .parts ps =>
      let texts := eachWritten (fields.map (·.2)) ps
      .record (TypeName.short name) ((fields.map (·.1)).zip texts)
    | _ => foreign
  printable := printable
  cloneable := cloneable
  equal? := if comparable then (equalities? (fields.map (·.2))).map partsEqual else none

/-- Whether content is a value of the type that stands for one that cannot be recorded. -/
def isPlaceholder (t : DataType) : Bool := t.name == placeholder.name

end DataType

end TraitMock
