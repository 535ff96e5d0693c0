import TraitMock.Syntax.Type

namespace TraitMock.Syntax

/-- What an expression stands in front of, which decides what it may hold outside of brackets. -/
inductive Place where
  /-- Nothing that could be taken for a part of it. -/
  | free
  /-- A block: there are no structure literals, and conditions may bind names. -/
  | beforeBlock
  /-- The arrow of a match arm: conditions may bind names. -/
  | beforeArrow
  deriving DecidableEq, Repr

namespace Reader

/-- The words that no path begins with. -/
def reservedWords : List String :=
  ["as", "async", "break", "const", "continue", "dyn", "else", "enum", "extern", "fn", "for", "if", "impl", "in",
    "let", "loop", "match", "mod", "move", "mut", "pub", "ref", "return", "static", "struct", "trait", "type",
    "unsafe", "use", "where", "while", "yield"]

/-- Reads marks without blanks between them; `first` says whether none was read yet. -/
def joined (first : Bool) : List String → Reader Unit
  | [] => pure ()
  | m :: rest => do
    let _ ← tokenThat fun t => t.kind == .mark && t.text == m && (first || t.gap == "")
    joined false rest

/-- The operators between two operands; one that begins another one stands behind it. -/
def operators : List (List String) :=
  [["<", "<", "="], [">", ">", "="], ["&", "&"], ["|", "|"], ["<", "<"], [">", ">"], ["=", "="], ["!", "="],
    ["<", "="], [">", "="], ["+", "="], ["-", "="], ["*", "="], ["/", "="], ["%", "="], ["^", "="], ["&", "="],
    ["|", "="], ["+"], ["-"], ["*"], ["/"], ["%"], ["^"], ["&"], ["|"], ["<"], [">"], ["="]]

/-- Reads an operator between two operands. -/
def operator : Reader Unit := operators.foldr (fun marks other => joined true marks <|> other) failure

/-- Reads an operator in front of its operand. -/
def sign : Reader Unit :=
  mark "-" <|> mark "*" <|> mark "!" <|> do
    mark "&"
    let raw ← optional do
      keyword "raw"
      keyword "const" <|> keyword "mut"
    if raw.isNone then
      let _ ← optionalKeyword "mut"

/-- Reads the dots of a range. -/
def rangeDots : Reader Unit :=
  mark "..." <|> do
    mark ".."
    let _ ← optionalMark "="

/-- Reads generic arguments behind two colons. -/
def genericArguments : Reader Unit := do
  mark "<"
  let _ ← listed1 ">" (deep argument)

/-- Reads a type without bounds. -/
def plainType : Reader Unit := do
  let _ ← deep single

/-- Reads a type behind a colon, if there is one. -/
def optionalType : Reader Unit := do
  if ← optionalMark ":" then
    let _ ← type

/-- Reads attributes. -/
def attributes : Reader Unit := do
  let _ ← many outerAttribute

/-- Reads an attribute of what it stands in. -/
def innerAttribute : Reader Unit := do
  mark "#"
  mark "!"
  mark "["
  let _ ← separated "::" name
  if ← optionalMark "=" then trees [] else
    let _ ← optional anyGroup
  mark "]"

/-- Whether some tokens begin with an expression that ends with a block. -/
def startsBlock : List Token → Bool
  | [] => false
  | t :: rest =>
    let opens := fun (ts : List Token) => ts.head?.any fun t => t.kind == .mark && t.text == "\x7b"
    match t.kind with
    | .lifetime => true
    | .mark => opens (t :: rest)
    | .word =>
      if ["if", "match", "while", "loop", "for"].contains t.text then true
      else if ["unsafe", "try", "const"].contains t.text then opens rest
      else if ["async", "gen"].contains t.text then
        opens rest || (rest.head?.any (·.text == "move") && opens rest.tail)
      else false
    | _ => false

/-- Whether an expression that ends with a block comes next. -/
def isBlockLike : Reader Bool := fun ts => some (startsBlock ts, ts)

/-- Whether an expression goes on behind its block. What could begin another expression does not count. -/
def goesOn : Reader Bool := fun ts =>
  match ts with
  | t :: _ =>
    some ((t.kind == .mark && [".", "?", "+", "/", "%", "^", "=", ">"].contains t.text) ||
      (t.kind == .word && t.text == "as"), ts)
  | [] => some (false, ts)

/-- Whether a closure or a jump comes next. -/
def isOpen : Reader Bool := fun ts =>
  match ts with
  | t :: _ =>
    let isClosure :=
      if t.kind == .mark then t.text == "|"
      else t.kind == .word && ["static", "async", "move"].contains t.text && !startsBlock ts
    some (isClosure || (t.kind == .word && ["continue", "return", "yield", "break"].contains t.text), ts)
  | [] => some (false, ts)

/-- Reads the word of a jump that may have a value, and says whether there was one. -/
def jumpWord : Reader Bool := do
  let word ← optional (keyword "return" <|> keyword "yield" <|> keyword "break")
  pure word.isSome

/-- Reads a closure up to the end of its parameters. -/
def closureHead : Reader Unit := do
  let _ ← optionalKeyword "static"
  let _ ← optionalKeyword "async"
  let _ ← optionalKeyword "move"
  mark "|"
  if ← optionalMark "|" then pure () else
    let _ ← separated "," do
      simplePattern
      optionalType
    mark "|"

/-- Reads a path in an expression. -/
def expressionPath : Reader Unit := do
  if ← optionalMark "<" then
    let _ ← type
    if ← optionalKeyword "as" then
      let _ ← type
    mark ">"
  else if ← isMark "::" then pure ()
  else
    let _ ← tokenThat fun t => t.kind == .word && !reservedWords.contains t.text
  let _ ← many do
    mark "::"
    genericArguments <|> (do
      let _ ← name)

/-- Reads a number, perhaps with a dot at its end. -/
def number : Reader Unit := do
  let _ ← tokenThat (·.kind == .number)
  let _ ← optional do
    mark "."
    fun ts =>
      match ts with
      | t :: _ => if t.kind == .word then none else some ((), ts)
      | [] => some ((), ts)

mutual

/-- Reads an expression. -/
def expression (item : Reader α) : Nat → Place → Reader Unit
  | 0, _ => failure
  | n + 1, p => do
    (do
      rangeDots
      rangeEnd item n p) <|>
    (do
      operandOf item n p
      operandsAfter item n p)

/-- Reads what follows the first operand of an expression. -/
def operandsAfter (item : Reader α) : Nat → Place → Reader Unit
  | 0, _ => failure
  | n + 1, p => do
    let _ ← many ((do
      operator
      operandOf item n p) <|> (do
      keyword "as"
      plainType))
    let _ ← optional do
      rangeDots
      rangeEnd item n p

/-- Reads the end of a range, if there is one. -/
def rangeEnd (item : Reader α) : Nat → Place → Reader Unit
  | 0, _ => failure
  | n + 1, p => do
    if p == .beforeBlock && (← isMark "\x7b") then pure ()
    else
      let _ ← optional do
        operandOf item n p
        operandsAfter item n p

/-- Reads an operand with the signs in front of it and what is applied to it. -/
def operandOf (item : Reader α) : Nat → Place → Reader Unit
  | 0, _ => failure
  | n + 1, p => do
    let _ ← many sign
    if p != .free && (← isWord "let") then
      keyword "let"
      pattern
      mark "="
      operandOf item n p
    else if ← isOpen then openExpression item n p
    else
      primary item n p
      let _ ← many (applied item n)

/-- Reads a field, a call or an index behind an operand. -/
def applied (item : Reader α) : Nat → Reader Unit
  | 0 => failure
  | n + 1 =>
    mark "?" <|>
    (do
      mark "."
      let t ← tokenThat fun t => t.kind == .word || t.kind == .number
      if t.kind == .word then
        let _ ← optional do
          mark "::"
          genericArguments) <|>
    (do
      mark "("
      let _ ← listed ")" (argumentOf item n)) <|>
    (do
      mark "["
      expression item n .free
      mark "]")

/-- Reads an argument of a call, or a member of a tuple or an array. -/
def argumentOf (item : Reader α) : Nat → Reader Unit
  | 0 => failure
  | n + 1 => do
    attributes
    expression item n .free

/-- Reads an operand by itself. -/
def primary (item : Reader α) : Nat → Place → Reader Unit
  | 0, _ => failure
  | n + 1, p => do
    if ← isBlockLike then blockLike item n
    else
      match ← peek? with
      | none => failure
      | some t =>
        match t.kind, t.text with
        | .number, _ => number
        | .mark, "(" => do
          mark "("
          let _ ← listed ")" (argumentOf item n)
        | .mark, "[" => do
          mark "["
          if ← optionalMark "]" then pure ()
          else
            argumentOf item n
            if ← optionalMark ";" then expression item n .free
            else
              let _ ← many do
                mark ","
                argumentOf item n
              let _ ← optionalMark ","
            mark "]"
        | .mark, "<" => pathOperand item n p
        | .mark, "::" => pathOperand item n p
        | .mark, _ => failure
        | .word, _ => pathOperand item n p
        | _, _ => do
          let _ ← tokenThat fun _ => true

/-- Reads a closure or a jump, which reaches as far as it can. -/
def openExpression (item : Reader α) : Nat → Place → Reader Unit
  | 0, _ => failure
  | n + 1, p => do
    if ← optionalKeyword "continue" then
      let _ ← optional lifetime
    else if ← jumpWord then
      let _ ← optional lifetime
      if p == .beforeBlock && (← isMark "\x7b") then pure ()
      else
        let _ ← optional (expression item n p)
    else
      closureHead
      if ← optionalMark "->" then
        plainType
        block item n
      else expression item n p

/-- Reads a path, a macro call or a structure literal. -/
def pathOperand (item : Reader α) : Nat → Place → Reader Unit
  | 0, _ => failure
  | n + 1, p => do
    expressionPath
    let call ← optional do
      mark "!"
      anyGroup
    if call.isNone && p != .beforeBlock && (← isMark "\x7b") then
      let _ ← optional do
        mark "\x7b"
        listed "\x7d" (fieldValue item n)

/-- Reads a field of a structure literal, or the structure that the other fields come from. -/
def fieldValue (item : Reader α) : Nat → Reader Unit
  | 0 => failure
  | n + 1 => do
    attributes
    if ← optionalMark ".." then expression item n .free
    else
      let _ ← tokenThat fun t => t.kind == .word || t.kind == .number
      if ← optionalMark ":" then expression item n .free

/-- Reads an expression that ends with a block. -/
def blockLike (item : Reader α) : Nat → Reader Unit
  | 0 => failure
  | n + 1 => do
    let _ ← optional do
      let _ ← lifetime
      mark ":"
    match ← peek? with
    | none => failure
    | some t =>
      match t.text with
      | "if" => do
        keyword "if"
        expression item n .beforeBlock
        block item n
        if ← optionalKeyword "else" then
          if ← isWord "if" then blockLike item n else block item n
      | "match" => do
        keyword "match"
        expression item n .beforeBlock
        mark "\x7b"
        let _ ← many innerAttribute
        let _ ← many (arm item n)
        mark "\x7d"
      | "while" => do
        keyword "while"
        expression item n .beforeBlock
        block item n
      | "for" => do
        keyword "for"
        pattern
        keyword "in"
        expression item n .beforeBlock
        block item n
      | "\x7b" => block item n
      | _ => do
        let _ ← tokenThat fun t => ["loop", "unsafe", "try", "const", "async", "gen"].contains t.text
        let _ ← optionalKeyword "move"
        block item n

/-- Reads an arm of a match. Only the last one, and one that ends with a block, has no comma. -/
def arm (item : Reader α) : Nat → Reader Unit
  | 0 => failure
  | n + 1 => do
    attributes
    pattern
    if ← optionalKeyword "if" then expression item n .beforeArrow
    mark "=>"
    if ← isBlockLike then
      blockLike item n
      if ← goesOn then
        let _ ← many (applied item n)
        operandsAfter item n .free
        mark "," <|> ahead (mark "\x7d")
      else
        let _ ← optionalMark ","
    else
      expression item n .free
      mark "," <|> ahead (mark "\x7d")

/-- Reads a block. -/
def block (item : Reader α) : Nat → Reader Unit
  | 0 => failure
  | n + 1 => do
    mark "\x7b"
    let _ ← many (statement item n)
    mark "\x7d"

/-- Reads a statement. Only the last expression of a block, and one that ends with a block, has no semicolon. -/
def statement (item : Reader α) : Nat → Reader Unit
  | 0 => failure
  | n + 1 => do
    if ← isWord "let" then binding item n
    else if ← isBlockLike then
      blockLike item n
      if ← goesOn then
        let _ ← many (applied item n)
        operandsAfter item n .free
        mark ";" <|> ahead (mark "\x7d")
    else
      (do
        expression item n .free
        mark ";" <|> ahead (mark "\x7d")) <|>
      (do
        let _ ← item)

/-- Reads a statement that binds names. -/
def binding (item : Reader α) : Nat → Reader Unit
  | 0 => failure
  | n + 1 => do
    keyword "let"
    pattern
    optionalType
    if ← optionalMark "=" then
      expression item n .free
      if ← optionalKeyword "else" then block item n
    mark ";"

end

end Reader

end TraitMock.Syntax
