import TraitMock.Json.Decode
import TraitMock.Value.Capture

namespace TraitMock.Samples

/-- A sample type. -/
inductive SampleType where
  | unit | bool | char | float32 | float | text
  /-- A record that can be written, copied and compared. -/
  | item
  /-- The same with a default. -/
  | point
  /-- A record of which nothing is written but its name. -/
  | conn
  /-- An alternative of several shapes. -/
  | shape
  /-- A record that cannot be compared. -/
  | loose
  /-- A record that can only be written. -/
  | handle
  /-- A record with which nothing can be done. -/
  | blind
  | error
  | int (name : String)
  | vec (t : SampleType) | option (t : SampleType) | box (t : SampleType) | hashSet (t : SampleType)
  | result (ok err : SampleType) | orderedMap (key value : SampleType) | hashMap (key value : SampleType)
  | tuple (ts : List SampleType)
  | array (t : SampleType) (length : Nat)

/-- The item of a store. -/
def itemType (home : String) : DataType := .record (home ++ "::Item") [("id", .int "u32")] true true true

def pointType (home : String) : DataType :=
  { DataType.record (home ++ "::Point") [("x", .int "i32"), ("y", .int "i32")] true true true with
    default? := some (.parts [.int 0, .int 0]) }

def connType (home : String) : DataType :=
  { DataType.record (home ++ "::Conn") [("id", .int "u32")] true true true with
    written := fun _ => .leaf "Conn \x7b .. \x7d" }

/-- A dot, a circle with its radius, or a rectangle with its sides. -/
def shapeType (home : String) : DataType where
  name := home ++ "::Shape"
  written
    | .choice "Dot" [] => .leaf "Dot"
    | .choice "Circle" [r] => .call "Circle" [DataType.float.written r]
    | .choice "Rect" [w, h] =>
      .record "Rect" [("w", (DataType.int "i32").written w), ("h", (DataType.int "i32").written h)]
    | _ => DataType.foreign
  equal? := some fun
    | .choice "Dot" [], .choice "Dot" [] => true
    | .choice "Circle" [.float a], .choice "Circle" [.float b] => a == b
    | .choice "Rect" [.int a, .int b], .choice "Rect" [.int c, .int d] => a == c && b == d
    | _, _ => false

namespace SampleType

mutual

/-- The type of data that a sample type is. The qualified names of the records begin with their module `home`. -/
def toData (home : String) : SampleType → DataType
  | .unit => .unit
  | .bool => .bool
  | .char => .char
  | .float32 => .float32
  | .float => .float
  | .text => .text
  | .item => itemType home
  | .point => pointType home
  | .conn => connType home
  | .shape => shapeType home
  | .loose => .record (home ++ "::Loose") [("n", .int "i32")] true true false
  | .handle => .record (home ++ "::Handle") [("fd", .int "i32")] true false false
  | .blind => .record (home ++ "::Blind") [] false false false
  | .error => .error
  | .int name => .int name
  | .vec t => .vec (t.toData home)
  | .option t => .option (t.toData home)
  | .box t => .box (t.toData home)
  | .hashSet t => .hashSet (t.toData home)
  | .result ok err => .result (ok.toData home) (err.toData home)
  | .orderedMap key value => .orderedMap (key.toData home) (value.toData home)
  | .hashMap key value => .hashMap (key.toData home) (value.toData home)
  | .tuple ts => .tuple (toDataAll home ts)
  | .array t length => .array (t.toData home) length

def toDataAll (home : String) : List SampleType → List DataType
  | [] => []
  | t :: ts => t.toData home :: toDataAll home ts

end

/-- The names of the types of whole numbers. -/
def intNames : List String := ["i8", "i16", "i32", "i64", "isize", "u8", "u16", "u32", "u64", "usize"]

def i32 : SampleType := .int "i32"

def u8 : SampleType := .int "u8"

/-- The sample types with names of more than one word, and the records. -/
def named : List (String × SampleType) :=
  [("()", .unit), ("bool", .bool), ("char", .char), ("f32", .float32), ("f64", .float), ("String", .text),
   ("Vec<i32>", .vec i32), ("Vec<u8>", .vec u8), ("Vec<f64>", .vec .float), ("Vec<String>", .vec .text),
   ("Vec<Vec<i32>>", .vec (.vec i32)), ("Vec<Point>", .vec .point), ("Vec<Conn>", .vec .conn),
   ("Vec<Loose>", .vec .loose), ("Option<i32>", .option i32), ("Option<String>", .option .text),
   ("Option<Option<i32>>", .option (.option i32)), ("Option<Item>", .option .item),
   ("Result<i32, String>", .result i32 .text), ("Result<Item, String>", .result .item .text),
   ("(i32,)", .tuple [i32]), ("(i32, String)", .tuple [i32, .text]), ("[i32; 3]", .array i32 3),
   ("Box<i32>", .box i32), ("BTreeMap<String, i32>", .orderedMap .text i32),
   ("HashMap<String, i32>", .hashMap .text i32), ("HashMap<String, Vec<u8>>", .hashMap .text (.vec u8)),
   ("HashSet<i32>", .hashSet i32), ("Item", .item), ("Point", .point), ("Conn", .conn), ("Shape", .shape),
   ("Loose", .loose), ("Handle", .handle), ("Blind", .blind), ("ErrorValue", .error)]

/-- The sample type with a short name. -/
def ofName? (name : String) : Option SampleType :=
  if intNames.contains name then some (.int name) else named.lookup name

end SampleType

def readText : Json → String
  | .string t => t.text
  | _ => ""

def readInt : Json → Int
  | .number (.ok (.integer n)) => n
  | _ => 0

/-- Reads the digits of a decimal without a sign. -/
def digitsOf (cs : List Char) : Nat := (cs.filter Char.isDigit).foldl (fun n c => 10 * n + (c.toNat - 48)) 0

/-- A decimal as its digits and a power of ten: `digits · 10 ^ power`. -/
def readDecimal (cs : List Char) : Nat × Int :=
  let mantissa := cs.takeWhile fun c => c != 'e' && c != 'E'
  let fraction := (mantissa.dropWhile (· != '.')).drop 1
  let exponent := (cs.drop mantissa.length).drop 1
  let power : Int := if exponent.head? = some '-' then -(digitsOf exponent : Int) else digitsOf exponent
  (digitsOf mantissa, power - fraction.length)

/-- A text without its sign, and whether it has one. -/
def signed (s : String) : Bool × List Char :=
  match s.toList with
  | '-' :: rest => (true, rest)
  | cs => (false, cs)

/-- A number of 64 bits from its text or as a JSON number. -/
def readFloat : Json → Float
  | .number (.ok (.integer n)) => Float.ofInt n
  | .number (.ok (.float x)) => x
  | .string t =>
    let (negative, cs) := signed t.text
    let x :=
      if cs = ['N', 'a', 'N'] then 0.0 / 0.0
      else if cs = ['i', 'n', 'f'] then 1.0 / 0.0
      else
        let (digits, power) := readDecimal cs
        Float.ofScientific digits (decide (power < 0)) power.natAbs
    if negative then -x else x
  | _ => 0

/-- A number of 32 bits from its text or as a JSON number. -/
def readFloat32 : Json → Float32
  | .string t =>
    let (negative, cs) := signed t.text
    let x : Float32 :=
      if cs = ['N', 'a', 'N'] then 0.0 / 0.0
      else if cs = ['i', 'n', 'f'] then 1.0 / 0.0
      else
        let (digits, power) := readDecimal cs
        Float32.ofScientific digits (decide (power < 0)) power.natAbs
    if negative then -x else x
  | j => (readFloat j).toFloat32

/-- The value of an entry of an object. -/
def entry (key : String) : Json → Json
  | .object es _ => ((es.find? fun e => e.1.text == key).map (·.2)).getD .null
  | _ => .null

/-- Whole numbers in ascending order, each once. -/
def ascending (ns : List Int) : List Int :=
  (ns.mergeSort fun a b => decide (a ≤ b)).foldr (fun n rest => if rest.head? = some n then rest else n :: rest) []

/-- Entries in the order of their keys; of several with one key the last. -/
def sortedEntries (es : List (Json.Text × Json)) : List (String × Json) :=
  let pairs := es.map fun e => (e.1.text, e.2)
  let latest := pairs.foldr (fun p rest => if rest.any (·.1 == p.1) then rest else p :: rest) []
  latest.mergeSort fun a b => decide (a.1 ≤ b.1)

namespace SampleType

mutual

/-- The content that a JSON value stands for. -/
def read : SampleType → Json → Payload
  | .bool, .bool b => .bool b
  | .char, j => .char ((readText j).toList.headD ' ')
  | .float32, j => .float32 (readFloat32 j)
  | .float, j => .float (readFloat j)
  | .text, j => .text (readText j)
  | .item, j => .parts [.int (readInt (entry "id" j))]
  | .point, j => .parts [.int (readInt (entry "x" j)), .int (readInt (entry "y" j))]
  | .conn, j => .parts [.int (readInt (entry "id" j))]
  | .loose, j => .parts [.int (readInt (entry "n" j))]
  | .handle, j => .parts [.int (readInt (entry "fd" j))]
  | .blind, _ => .parts []
  | .shape, .string t => .choice t.text []
  | .shape, .object [(⟨"Circle", _⟩, r)] _ => .choice "Circle" [.float (readFloat r)]
  | .shape, .object [(⟨"Rect", _⟩, j)] _ =>
    .choice "Rect" [.int (readInt (entry "w" j)), .int (readInt (entry "h" j))]
  | .int _, j => .int (readInt j)
  | .vec t, .array items _ => .parts (items.map t.read)
  | .array t _, .array items _ => .parts (items.map t.read)
  | .box t, j => t.read j
  | .option _, .null => .choice "None" []
  | .option t, j => .choice "Some" [t.read j]
  | .hashSet _, .array items _ => .parts ((ascending (items.map readInt)).map .int)
  | .result ok _, .object [(⟨"Ok", _⟩, j)] _ => .choice "Ok" [ok.read j]
  | .result _ err, .object [(⟨"Err", _⟩, j)] _ => .choice "Err" [err.read j]
  | .orderedMap _ value, .object es _ =>
    .parts ((sortedEntries es).map fun e => .parts [.text e.1, value.read e.2])
  | .hashMap _ value, .object es _ =>
    .parts ((sortedEntries es).map fun e => .parts [.text e.1, value.read e.2])
  | .tuple ts, .array items _ => .parts (readAll ts items)
  | _, _ => .unit

def readAll : List SampleType → List Json → List Payload
  | t :: ts, j :: js => t.read j :: readAll ts js
  | _, _ => []

end

end SampleType

end TraitMock.Samples
