import TraitMock.Mock.Proxy
import TraitMock.Samples.Types

namespace TraitMock.Samples

/-- A number brought into the range of 32 bits with a sign. -/
def wrap32 (n : Int) : Int := n.bmod 0x100000000

def messageError (s : String) : ErrorChain := ⟨⟨.call "MessageError" [.leaf (Text.quoted s)], s⟩, []⟩

def notFoundLink (s : String) : ErrorLink :=
  ⟨.call "NotFound" [.leaf (Text.quoted s)], "not found: " ++ s⟩

def notFound (s : String) : ErrorChain := ⟨notFoundLink s, []⟩

/-- An error that another one caused. -/
def lookupFailed (s : String) : ErrorChain :=
  ⟨⟨.call "Lookup" [(notFoundLink s).written], "lookup failed"⟩, [notFoundLink s]⟩

def systemError (s : String) : ErrorChain :=
  ⟨⟨.record "Custom" [("kind", .leaf "Other"), ("error", .leaf (Text.quoted s))], s⟩, []⟩

/-- A predicate on whole numbers. -/
def intTest (name : String) (limit : Int) : Payload → Except PanicPayload Bool
  | .int v =>
    match name with
    | "even" => .ok (v % 2 == 0)
    | "gt" => .ok (decide (limit < v))
    | "panic_fmt" => .error (.text ("bad " ++ toString v))
    | "panic_str" => .error (.text "always")
    | "panic_any" => .error .other
    | _ => if v % 2 == 0 then .ok true else .error (.text ("odd \"" ++ toString v ++ "\""))
  | _ => .ok false

/-- A predicate on texts. -/
def textTest (name : String) (limit : Int) (part : String) : Payload → Except PanicPayload Bool
  | .text s =>
    match name with
    | "true" => .ok true
    | "len_gt" => .ok (decide (limit < s.utf8ByteSize))
    | _ => .ok (Text.contains s part)
  | _ => .ok false

/-- A predicate on content that has parts. -/
def partsTest (limit : Int) : Payload → Except PanicPayload Bool
  | .parts [.int x, .int y] => .ok (x == y)
  | .parts l => .ok (decide (limit < l.length))
  | .choice tag _ => .ok (tag == "Ok")
  | _ => .ok false

/-- A predicate on values of a sample type. -/
def typedTest (home type name : String) (limit : Int) (part : String) : Criterion :=
  match SampleType.ofName? type with
  | some t =>
    .byType (t.toData home) (match t with
      | .int _ => intTest name limit
      | .text => textTest name limit part
      | .vec _ => fun
        | .parts l => .ok (decide (limit < l.length))
        | _ => .ok false
      | _ => partsTest limit)
  | none => .byValue fun
    | .nil => .ok false
    | _ => .ok true

/-- A predicate on all values. -/
def valueTest (name arg : String) : Criterion :=
  .byValue fun v =>
    match name with
    | "is_nil" => match v with
      | .nil => .ok true
      | _ => .ok false
    | "true" => .ok true
    | "type" => .ok (v.typeName == arg)
    | _ => .error (.text arg)

/-- The type of functions that can be shared, by their parameters and result. -/
def functionType (params result : String) : String :=
  "dyn core::ops::function::Fn(" ++ params ++ ") -> " ++ result ++
    " + core::marker::Send + core::marker::Sync"

def itemResult (home : String) : DataType := .result (itemType home) .text

/-- The qualified type of a producer. -/
def producerType (home name : String) : String :=
  match name with
  | "i32_double" | "i32" => functionType "i32" "i32"
  | "tag_len" => functionType DataType.text.name "u32"
  | "tag_twice" | "tag_str" => functionType DataType.text.name DataType.text.name
  | "name" => functionType "" DataType.text.name
  | _ => functionType "&'_ str, u32" (itemResult home).name

/-- What a producer does. -/
def producerRun (name : String) (args : List Payload) : Except PanicPayload Payload :=
  match name, args with
  | "i32_double", [.int n] => .ok (.int (wrap32 (2 * n)))
  | "get_scaled", [.text key, .int n] =>
    .ok (.choice "Ok" [.parts [.int ((key.utf8ByteSize * n) % 0x100000000)]])
  | "get_err", [.text key, .int n] => .ok (.choice "Err" [.text (key ++ ":" ++ toString n)])
  | "get_panic", _ => .error (.text "producer failed")
  | "tag_len", [.text s] => .ok (.int s.utf8ByteSize)
  | "tag_twice", [.text s] => .ok (.text (s ++ s))
  | "name", _ => .ok (.text "produced")
  | _, _ => .ok .unit

def producer (home : String) (id : Nat) (name : String) : Value :=
  .producer ⟨id, producerType home name, producerRun name⟩

def intValue (type : String) (n : Int) : Value := .data (.plain (.int type) (.int n))

def textValue (s : String) : Value := .data (.plain .text (.text s))

/-- The texts among the values. -/
def textsOf (vs : Arguments) : List String := vs.filterMap fun
  | .data ⟨_, .text s, _⟩ => some s
  | _ => none

/-- The whole numbers among the values. -/
def intsOf (vs : Arguments) : List Int := vs.filterMap fun
  | .data ⟨_, .int n, _⟩ => some n
  | _ => none

/-- The number of parts of the first value. -/
def partCount (vs : Arguments) : Int :=
  match vs with
  | .data ⟨_, .parts l, _⟩ :: _ => l.length
  | _ => 0

def listText (ns : List Int) : String := (Written.sequence (ns.map fun n => .leaf (toString n))).compact

/-- What a sample function gives for the values of its parameters. -/
def functionRun (home name : String) (log : MatchLog) (vs : Arguments) : Except PanicPayload Arguments :=
  let texts := textsOf vs
  let ints := intsOf vs
  let first := ints.headD 0
  match name with
  | "lookup" => .ok [intValue "i32" (wrap32 (((texts.headD "").utf8ByteSize : Int) + first))]
  | "pair" => .ok [.data (.wrap (.int "i32") (.int 1)), .text "one"]
  | "join" => .ok [textValue ((texts.headD "").intercalate texts.tail)]
  | "sum" => .ok [intValue "i64" (ints.foldl (· + ·) 0)]
  | "six" => .ok [textValue (String.join (ints.map toString))]
  | "is_nil" => .ok [.data (.plain .bool (.bool (vs.all Value.isNil)))]
  | "collect" => .ok [textValue ("|".intercalate (vs.map (Value.render log)))]
  | "explode" => .error (.text ("exploded " ++ toString first))
  | "echo" => .ok vs
  | "item" =>
    .ok [.data (.plain (itemResult home)
      (if first = 0 then .choice "Err" [.text "zero"] else .choice "Ok" [.parts [.int first]]))]
  | "closure" => .ok [intValue "i32" (wrap32 (2 * first))]
  | "generic" | "tuple_generic" => .ok [intValue "usize" (partCount vs)]
  | "variadic_closure" => .ok [textValue (toString first ++ texts.headD "" ++ listText ints.tail)]
  | _ => .ok []

/-- A sample function. -/
def function (home name : String) : ProxyFunction :=
  let run := fun _ => functionRun home name
  let own := home ++ "::" ++ name
  let closure := home ++ "::\x7b\x7bclosure\x7d\x7d"
  let int := Wanted.data (.int "i32")
  let text := Wanted.data .text
  match name with
  | "lookup" => ⟨own, [text, int], none, run⟩
  | "nothing" => ⟨own, [.data .bool], none, run⟩
  | "join" => ⟨own, [text], some text, run⟩
  | "sum" => ⟨own, [], some int, run⟩
  | "six" => ⟨own, List.replicate 6 int, none, run⟩
  | "is_nil" | "echo" => ⟨own, [.value], none, run⟩
  | "collect" => ⟨own, [], some .value, run⟩
  | "explode" => ⟨own, [int], none, run⟩
  | "item" => ⟨own, [.data (.int "u32")], none, run⟩
  | "closure" => ⟨closure, [int], none, run⟩
  | "pointer" => ⟨"fn(bool)", [.data .bool], none, run⟩
  | "generic" => ⟨home ++ "::first<i32>", [.data (.vec (.int "i32"))], none, run⟩
  | "tuple_generic" =>
    ⟨home ++ "::first<(i32, u8)>", [.data (.vec (.tuple [.int "i32", .int "u8"]))], none, run⟩
  | "variadic_closure" => ⟨closure, [int, text], some (.data (.int "u8")), run⟩
  | _ => ⟨own, [], none, run⟩

end TraitMock.Samples
