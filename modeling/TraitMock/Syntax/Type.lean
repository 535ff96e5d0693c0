import TraitMock.Syntax.Pattern

namespace TraitMock.Syntax

/-- A path, and whether it is one name. -/
structure PathText where
  text : String
  isName : Bool
  deriving DecidableEq, Repr

/-- What the parameters of a function type belong to. -/
inductive FunctionHead where
  /-- The keyword `fn` with everything in front of it. -/
  | keyword (text : String)
  /-- A trait, with the lifetimes that it is quantified over. -/
  | trait (binder : Option String) (path : PathText)
  deriving DecidableEq, Repr

mutual

inductive TypeExpr where
  | primitive (name : String)
  | named (path : PathText)
  | generic (base : PathText) (args : List GenericExpr)
  | reference (lifetime : Option String) (isMutable : Bool) (inner : TypeExpr)
  | pointer (isMutable : Bool) (inner : TypeExpr)
  | array (element : TypeExpr) (length : String)
  | slice (element : TypeExpr)
  | tuple (elements : List TypeExpr)
  | parenthesized (inner : TypeExpr)
  | never
  | dynamic (bound : TypeExpr)
  | abstract (bound : TypeExpr)
  /-- Two bounds with a plus sign between them. -/
  | sum (left right : TypeExpr)
  /-- A lifetime as a bound. -/
  | lifetime (name : String)
  /-- A bound behind a question mark. -/
  | relaxed (inner : TypeExpr) (text : String)
  /-- A bound behind `for` and lifetime parameters. -/
  | quantified (params : String) (inner : TypeExpr)
  | function (head : FunctionHead) (params : List FunctionParam) (result : Option TypeExpr) (text : String)
  /-- Anything else that stands for a type, such as a macro call. -/
  | other (text : String)

inductive GenericExpr where
  | type (t : TypeExpr)
  | lifetime (name : String)
  | binding (name : String) (t : TypeExpr)
  /-- A binding whose name has arguments. -/
  | genericBinding (text : String)
  | const (text : String)
  /-- Bounds behind an argument. -/
  | bounds (text : String)

inductive FunctionParam where
  | typed (t : TypeExpr)
  | variadic

end

/-- The types of the language that are no paths. -/
def primitives : List String :=
  ["u8", "i8", "u16", "i16", "u32", "i32", "u64", "i64", "u128", "i128", "isize", "usize", "f32", "f64", "bool",
    "str", "char"]

/-- The words that may stand in front of `fn`. -/
def modifierWords : List String := ["async", "default", "const", "unsafe", "gen"]

/-- The words that are no types by themselves. -/
def pathWords : List String := ["self", "super", "crate"]

namespace Reader

/-- Reads an `extern` with its optional name of an interface. -/
def externModifier : Reader Unit := do
  keyword "extern"
  let _ ← optional (tokenThat fun t => t.kind == .string || t.kind == .rawString)

/-- Reads one of the words in front of `fn`. -/
def modifier : Reader Unit :=
  externModifier <|> do
    let _ ← tokenThat fun t => t.kind == .word && modifierWords.contains t.text

/-- Reads the words in front of `fn`, at least one, as a text. -/
def modifiers : Reader String := textOf do
  modifier
  let _ ← many modifier

/-- Reads the keyword `fn` with the words in front of it. -/
def functionKeyword : Reader Unit := do
  let _ ← optional modifiers
  keyword "fn"

/-- Reads an attribute and gives its text as it was written. -/
def outerAttribute : Reader String := writtenText do
  mark "#"
  mark "["
  let _ ← optionalMark "::"
  let _ ← separated "::" name
  if ← optionalMark "=" then trees [] else
    let _ ← optional anyGroup
  mark "]"

/-- Reads `for` with lifetimes in angle brackets as a text. -/
def forLifetimes : Reader String := textOf do
  keyword "for"
  mark "<"
  let _ ← listed1 ">" lifetime

/-- A literal that is an argument by itself. -/
def constLiteral : Reader Unit := do
  let _ ← tokenThat fun t =>
    match t.kind with
    | .number => true
    | .string => true
    | .character => true
    | .word => t.text == "true" || t.text == "false"
    | _ => false

/-- Reads the parameter by which a method is called, without a type of its own. -/
def selfParameter : Reader String := textOf do
  let _ ← optionalMark "&"
  let _ ← optional lifetime
  let _ ← optionalKeyword "mut"
  keyword "self"

/-- Reads the dots that stand for any number of arguments, perhaps behind a pattern. -/
def variadicParameter : Reader Unit := do
  let _ ← optionalKeyword "mut"
  let _ ← optional patternColon
  mark "..."

/-- The text of the tokens that were read since `start`. -/
def textSince (start : List Token) : Reader String := fun ts =>
  some (squashed (start.take (start.length - ts.length)), ts)

/-- The tokens that are left. -/
def position : Reader (List Token) := fun ts => some (ts, ts)

mutual

/-- Reads a type: bounds with plus signs between them, or a single type. -/
def typeUpTo : Nat → Reader TypeExpr
  | 0 => failure
  | n + 1 => do
    let first ← operand n
    let more ← many do
      mark "+"
      operand n
    match first, more with
    | .lifetime _, [] => failure
    | _, _ => pure (more.foldl .sum first)

/-- Reads one operand of a plus sign. -/
def operand : Nat → Reader TypeExpr
  | 0 => failure
  | n + 1 => do
    match ← peek? with
    | none => failure
    | some t =>
      if t.kind == .lifetime then .lifetime <$> lifetime
      else if t.kind == .word && t.text == "use" then .other <$> textOf do
        keyword "use"
        mark "<"
        let _ ← listed ">" (tokenThat fun t => t.kind == .lifetime || t.kind == .word)
      else single n

/-- Reads a type without a plus sign outside of brackets. -/
def single : Nat → Reader TypeExpr
  | 0 => failure
  | n + 1 => do
    match ← peek? with
    | none => failure
    | some t =>
      match t.kind, t.text with
      | .mark, "&" => do
        mark "&"
        let l ← optional lifetime
        let m ← optionalKeyword "mut"
        .reference l m <$> single n
      | .mark, "*" => do
        mark "*"
        let m ← optionalKeyword "mut"
        if !m then keyword "const"
        .pointer m <$> single n
      | .mark, "[" => do
        mark "["
        let element ← typeUpTo n
        if ← optionalMark ";" then
          let length ← textOf (trees [";", ","])
          mark "]"
          pure (.array element length)
        else
          mark "]"
          pure (.slice element)
      | .mark, "(" => parenthesized n
      | .mark, "!" => do
        mark "!"
        pure .never
      | .mark, "?" => do
        let (inner, text) ← withText do
          mark "?"
          single n
        pure (.relaxed inner text)
      | .word, "dyn" => do
        keyword "dyn"
        .dynamic <$> bound n
      | .word, "impl" => do
        keyword "impl"
        if ← isWord "for" then
          keyword "for"
          genericParameters n
        match ← peek? with
        | some t =>
          if t.kind == .lifetime then .abstract <$> typeUpTo n
          else if t.kind == .mark && t.text == "?" then .abstract <$> single n
          else .abstract <$> bound n
        | none => failure
      | .word, _ => namedType n
      | .mark, "<" => namedType n
      | .mark, "::" => namedType n
      | _, _ => failure

/-- Reads a tuple, a unit or a type in parentheses. -/
def parenthesized : Nat → Reader TypeExpr
  | 0 => failure
  | n + 1 => do
    mark "("
    if ← optionalMark ")" then pure (.tuple [])
    else
      let elements ← separated "," (typeUpTo n)
      let comma ← optionalMark ","
      mark ")"
      match elements, comma with
      | [t], false => pure (.parenthesized t)
      | _, _ => pure (.tuple elements)

/-- Reads what may follow `dyn`: a trait, with parameters or quantified lifetimes, or a tuple. -/
def bound : Nat → Reader TypeExpr
  | 0 => failure
  | n + 1 => do
    if ← isWord "for" then quantified n
    else if ← isMark "(" then
      match ← parenthesized n with
      | .tuple [] => failure
      | t => pure t
    else
      match ← namedType n with
      | .primitive _ => failure
      | .other _ => failure
      | t => pure t

/-- Reads a bound with quantified lifetimes. -/
def quantified : Nat → Reader TypeExpr
  | 0 => failure
  | n + 1 => do
    let start ← position
    keyword "for"
    let params ← textOf (genericParameters n)
    let binder ← textSince start
    match ← optional functionKeyword, ← peek? with
    | some _, _ => do
      let head ← textSince start
      functionFrom n start (.keyword head)
    | none, some t =>
      if t.kind == .word && t.text != "dyn" && t.text != "impl" then
        match ← pathFrom n start (some binder) with
        | .function head ps r text => pure (.function head ps r text)
        | t => pure (.quantified params t)
      else .quantified params <$> single n
    | none, none => failure

/-- Reads a type that begins with a path, or a function type. -/
def namedType : Nat → Reader TypeExpr
  | 0 => failure
  | n + 1 => do
    let start ← position
    let binder ← onlyIf (isWord "for") forLifetimes
    match ← optional functionKeyword with
    | some _ => do
      let head ← textSince start
      functionFrom n start (.keyword head)
    | none =>
      match binder, ← pathFrom n start binder with
      | some _, .function head ps r text => pure (.function head ps r text)
      | some _, _ => failure
      | none, t => pure t

/-- Reads a type that begins with a path: a function type if parameters follow, which began at `start` with
the quantified lifetimes `binder`. -/
def pathFrom : Nat → List Token → Option String → Reader TypeExpr
  | 0, _, _ => failure
  | n + 1, start, binder => do
    let here ← position
    match ← pathWithArguments n with
    | (path, some args) => pure (.generic path args)
    | (path, none) =>
      if ← isMark "(" then functionFrom n start (.trait binder path)
      else if ← isMark "!" then
        mark "!"
        anyGroup
        .other <$> textSince here
      else if path.isName && pathWords.contains path.text then failure
      else if path.isName && primitives.contains path.text then pure (.primitive path.text)
      else pure (.named path)

/-- Reads the parameters and the result of a function type that began at `start`. -/
def functionFrom : Nat → List Token → FunctionHead → Reader TypeExpr
  | 0, _, _ => failure
  | n + 1, start, head => do
    mark "("
    let params ← listed ")" (functionParam n)
    let result ← onlyIf (isMark "->") do
      mark "->"
      single n
    let text ← textSince start
    pure (.function head (params.filterMap id) result text)

/-- Reads a parameter of a function type; a lone underscore is none. -/
def functionParam : Nat → Reader (Option FunctionParam)
  | 0 => failure
  | n + 1 => do
    let _ ← optional outerAttribute
    (do
      variadicParameter
      pure (some .variadic)) <|>
    (do
      let _ ← optionalKeyword "mut"
      patternColon
      let t ← typeUpTo n
      pure (some (.typed t))) <|>
    (do
      let s ← selfParameter
      pure (some (.typed (.other s)))) <|>
    (do
      keyword "_"
      pure none) <|>
    (do
      let t ← typeUpTo n
      pure (some (.typed t)))

/-- Reads a path with the generic arguments at its end. -/
def pathWithArguments : Nat → Reader (PathText × Option (List GenericExpr))
  | 0 => failure
  | n + 1 => do
    let start ← position
    if ← isMark "::" then segments n start
    else if ← isMark "<" then
      mark "<"
      let _ ← typeUpTo n
      if ← optionalKeyword "as" then
        let _ ← typeUpTo n
      mark ">"
      segments n start
    else
      let first ← name
      if ← isMark "::" then segments n start
      else if ← isMark "<" then arguments n start ⟨first, true⟩
      else pure (⟨first, true⟩, none)

/-- Reads the segments of a path that began at `start`, each with its colons. -/
def segments : Nat → List Token → Reader (PathText × Option (List GenericExpr))
  | 0, _ => failure
  | n + 1, start => do
    mark "::"
    if ← isMark "<" then
      mark "<"
      let _ ← listed1 ">" (argument n)
      segments n start
    else
      let _ ← name
      let text ← textSince start
      if ← isMark "::" then segments n start
      else if ← isMark "<" then arguments n start ⟨text, false⟩
      else pure (⟨text, false⟩, none)

/-- Reads the generic arguments behind `path`, which may go on after them. -/
def arguments : Nat → List Token → PathText → Reader (PathText × Option (List GenericExpr))
  | 0, _, _ => failure
  | n + 1, start, path => do
    mark "<"
    let args ← listed1 ">" (argument n)
    if ← isMark "::" then segments n start
    else pure (path, some (args.flatMap id))

/-- Reads one generic argument, with the bounds behind it as another one. -/
def argument : Nat → Reader (List GenericExpr)
  | 0 => failure
  | n + 1 => do
    let arg ← plainArgument n
    if ← isMark ":" then
      let text ← textOf (bounds n)
      pure [arg, .bounds text]
    else pure [arg]

/-- Reads a generic argument: a constant, a type, a binding of a name to a type, or a lifetime. -/
def plainArgument : Nat → Reader GenericExpr
  | 0 => failure
  | n + 1 => do
    let start ← position
    match ← optional (textOf (constLiteral <|> group "\x7b")) with
    | some text => pure (.const text)
    | none =>
      match ← optional (typeUpTo n) with
      | some t => do
        if ← isMark "=" then
          mark "="
          let bound ← typeUpTo n
          let text ← textSince start
          match t with
          | .named ⟨x, true⟩ => pure (.binding x bound)
          | .generic ⟨_, true⟩ _ => pure (.genericBinding text)
          | _ => failure
        else pure (.type t)
      | none =>
        (.lifetime <$> lifetime) <|> ((.type ∘ .other) <$> textOf (tokenThat (·.kind == .rawString)))

/-- Reads bounds behind a colon. -/
def bounds : Nat → Reader (List (TypeExpr × String))
  | 0 => failure
  | n + 1 => do
    mark ":"
    separated "+" (withText (superBound n))

/-- Reads one of the bounds behind a colon. -/
def superBound : Nat → Reader TypeExpr
  | 0 => failure
  | n + 1 => do
    if ← isWord "for" then quantified n else operand n

/-- Reads generic parameters in angle brackets. -/
def genericParameters : Nat → Reader Unit
  | 0 => failure
  | n + 1 => do
    mark "<"
    let _ ← listed1 ">" (genericParameter n)

/-- Reads one generic parameter, and says whether it is a lifetime. -/
def genericParameter : Nat → Reader Bool
  | 0 => failure
  | n + 1 => do
    let _ ← many outerAttribute
    (do
      let _ ← lifetime
      let _ ← onlyIf (isMark ":") (bounds n)
      pure true) <|>
    (do
      keyword "const"
      let _ ← name
      mark ":"
      let _ ← typeUpTo n
      let _ ← onlyIf (isMark "=") do
        mark "="
        group "\x7b" <|> (do
          let _ ← optionalMark "-"
          let _ ← tokenThat fun t => t.kind != .mark && t.kind != .lifetime)
      pure false) <|>
    (do
      let _ ← name
      let _ ← onlyIf (isMark ":") (bounds n)
      let _ ← onlyIf (isMark "=") do
        mark "="
        typeUpTo n
      pure false)

end

/-- How deep the readers of types and items may go: no reader calls itself through more than ten others without
reading a token. -/
def depth (ts : List Token) : Nat := 10 * ts.length + 10

/-- Runs a reader of limited depth deep enough for the tokens that are left. -/
def deep (r : Nat → Reader α) : Reader α := fun ts => r (depth ts) ts

/-- Reads a type. -/
def type : Reader TypeExpr := deep typeUpTo

end Reader

end TraitMock.Syntax
