import TraitMock.Syntax.Expression

namespace TraitMock.Syntax

/-- What an import names, as a tree of paths. -/
inductive UseTree where
  /-- The keyword `self` alone. -/
  | itself
  | path (path : String)
  | renamed (path newName : String)
  /-- All items of a module, or of where the tree stands if the path is empty. -/
  | glob (path : String)
  /-- Several trees behind a path, which may be empty. -/
  | group (path : String) (trees : List UseTree)

/-- What a parameter of a method is called. -/
inductive ParamPattern where
  | name (s : String)
  | self
  | other
  deriving DecidableEq, Repr

/-- A parameter of a method. -/
inductive ParamDecl where
  | receiver (text : String)
  | typed (pattern : ParamPattern) (type : TypeExpr) (text : String)
  | bare (type : TypeExpr)
  | variadic

/-- The generic parameters of a method. -/
structure GenericParams where
  text : String
  /-- Whether they are lifetimes only. -/
  lifetimesOnly : Bool
  deriving DecidableEq, Repr

structure MethodDecl where
  name : String
  /-- The words in front of `fn`. -/
  modifiers : Option String
  generics : Option GenericParams
  params : List ParamDecl
  result : Option TypeExpr
  whereClause : Option String

/-- A member of a trait. -/
inductive Member where
  | method (m : MethodDecl)
  /-- An attribute, or a lone semicolon. -/
  | blank
  | associatedType
  | associatedConst
  /-- Another item, with the name of its kind. -/
  | other (kind : String)

/-- A bound of a trait. -/
inductive SuperBound where
  /-- A lifetime, or a bound behind a question mark. -/
  | marker
  | trait (path : PathText)
  | other (text : String)
  deriving DecidableEq, Repr

structure TraitDecl where
  name : String
  isUnsafe : Bool
  /-- The generic parameters as they are written. -/
  generics : Option String
  bounds : List SuperBound
  members : List Member

/-- An item of a file. -/
inductive Item where
  | attribute (text : String)
  | innerAttribute
  | importDecl (tree : UseTree)
  /-- A module, written in place or in a file of its own. -/
  | module (name : String) (inPlace : Bool)
  | typeAlias (name : String) (type : TypeExpr)
  /-- A structure, an enumeration or a union. -/
  | dataType (kind name : String)
  | trait (t : TraitDecl)
  | function (m : MethodDecl)
  /-- Another item, with the name of its kind. -/
  | other (kind : String)

/-- An item with its place among comments. -/
structure Entry where
  /-- Whether a comment stands between this item and the one before it. -/
  commented : Bool
  item : Item

namespace Reader

/-- Reads a path of an import and gives it without blanks. -/
def usePath : Reader String := do
  let text ← textOf do
    if ← optionalMark "::" then
      let _ ← separated "::" name
    else
      let _ ← separated "::" name
  pure (Text.compact text)

/-- The module all of whose items are named by a path that ends in a star. -/
def moduleOfGlob (path : String) : String :=
  String.ofList (Text.dropColons (path.toList.reverse.dropWhile (· = '*'))).reverse

/-- Reads a star with the path in front of it, if there is one, and gives the path without blanks. -/
def useGlob : Reader String := do
  let text ← textOf do
    if (← optional usePath).isSome then mark "::"
    else
      let _ ← optionalMark "::"
    mark "*"
  pure (moduleOfGlob (Text.relativePath (Text.compact text)))

/-- Reads the braces of an import. -/
def useList (r : Reader UseTree) : Reader (List UseTree) := do
  mark "\x7b"
  listed "\x7d" r

/-- Reads what follows the path of an import. -/
def useRest (path : String) (isSelf : Bool) (r : Reader UseTree) : Reader UseTree := do
  if ← optionalMark "::" then .group (Text.relativePath path) <$> useList r
  else if ← optionalKeyword "as" then .renamed (Text.relativePath path) <$> name
  else pure (if isSelf then .itself else .path (Text.relativePath path))

/-- Reads the tree of an import. -/
def useTree : Nat → Reader UseTree
  | 0 => failure
  | n + 1 => do
    if ← isMark "\x7b" then .group "" <$> useList (useTree n)
    else
      (.glob <$> useGlob) <|> (do
        match ← optional usePath with
        | none => do
          ahead (mark "::")
          useRest "" false (useTree n)
        | some path => useRest path (path = "self") (useTree n))

/-- Reads who may see an item, if it says so. -/
def visibility : Reader Unit := do
  if ← optionalKeyword "pub" then
    let _ ← optional do
      mark "("
      if ← optionalKeyword "in" then
        let _ ← usePath
      else
        let _ ← tokenThat fun t => t.kind == .word && pathWords.contains t.text
      mark ")"

/-- Reads a type in front of something else. -/
def aType : Reader Unit := do
  let _ ← type

/-- Reads generic parameters, and says of each whether it is a lifetime. -/
def generics : Reader (List Bool) := do
  mark "<"
  listed1 ">" (deep genericParameter)

/-- Reads generic parameters, if there are any, with their text. -/
def optionalGenerics : Reader (Option GenericParams) := onlyIf (isMark "<") do
  let (params, text) ← withText generics
  pure ⟨text, params.all id⟩

/-- Reads one condition of a `where` clause. -/
def wherePredicate : Reader Unit := do
  if ← isWord "for" then
    let _ ← deep quantified
  else
    let _ ← deep operand
  let _ ← deep bounds

/-- Reads a `where` clause, if there is one, as a text. -/
def optionalWhere : Reader (Option String) := onlyIf (isWord "where") (textOf do
  keyword "where"
  let conditions ← optional (separated "," wherePredicate)
  if conditions.isSome then
    let _ ← optionalMark ",")

/-- Reads the pattern of a parameter, with the colon behind it. -/
def paramPattern : Reader ParamPattern := do
  let _ ← optionalKeyword "mut"
  let start ← position
  patternColon
  match start with
  | t :: c :: _ =>
    if t.kind == .word && c.kind == .mark && c.text == ":" then
      if t.text == "self" then pure .self
      else if ["_", "true", "false"].contains t.text then pure .other
      else pure (.name t.text)
    else pure .other
  | _ => failure

/-- Reads one parameter of a method, or none for a lone underscore. -/
def param : Reader (Option ParamDecl) := do
  let _ ← optional outerAttribute
  (do
    variadicParameter
    pure (some .variadic)) <|>
  (do
    let ((pattern, t), text) ← withText do
      let pattern ← paramPattern
      let t ← type
      pure (pattern, t)
    pure (some (.typed pattern t text))) <|>
  (do
    let s ← selfParameter
    pure (some (.receiver s))) <|>
  (do
    keyword "_"
    pure none) <|>
  (do
    let t ← type
    pure (some (.bare t)))

/-- Reads a function: its head, and a body or a semicolon. -/
def function (body : Reader Unit) : Reader MethodDecl := do
  let front ← optional modifiers
  keyword "fn"
  let x ← name
  let params ← optionalGenerics
  mark "("
  let ps ← listed ")" param
  let result ← onlyIf (isMark "->") do
    mark "->"
    type
  let clause ← optionalWhere
  mark ";" <|> body
  pure ⟨x, front, params, ps.filterMap id, result, clause⟩

/-- Reads a field with a name. -/
def namedField : Reader Unit := do
  let _ ← many outerAttribute
  visibility
  let _ ← name
  mark ":"
  aType

/-- Reads a field without a name. -/
def plainField : Reader Unit := do
  let _ ← many outerAttribute
  visibility
  aType

def namedFields : Reader Unit := do
  mark "\x7b"
  let _ ← listed "\x7d" namedField

def plainFields : Reader Unit := do
  mark "("
  let _ ← listed ")" plainField

/-- Reads a structure behind its keyword and gives its name. -/
def structDecl : Reader String := do
  let x ← name
  let _ ← optionalGenerics
  (do
    plainFields
    let _ ← optionalWhere
    mark ";") <|>
  (do
    let _ ← optionalWhere
    namedFields <|> mark ";")
  pure x

/-- Reads a variant of an enumeration, perhaps with its number. -/
def variant (value : Reader Unit) : Reader Unit := do
  let _ ← many outerAttribute
  visibility
  let _ ← name
  let _ ← optional (namedFields <|> plainFields)
  if ← optionalMark "=" then value

/-- Reads an enumeration behind its keyword and gives its name. -/
def enumDecl (value : Reader Unit) : Reader String := do
  let x ← name
  let _ ← optionalGenerics
  let _ ← optionalWhere
  mark "\x7b"
  let _ ← listed "\x7d" (variant value)
  pure x

/-- Reads a union behind its keyword and gives its name. -/
def unionDecl : Reader String := do
  let x ← name
  let _ ← optionalGenerics
  let _ ← optionalWhere
  namedFields
  pure x

/-- Reads the value of a constant, if there is one, and the semicolon. -/
def optionalValue (value : Reader Unit) : Reader Unit := do
  if ← optionalMark "=" then value
  mark ";"

/-- Reads a bound of a trait. -/
def traitBound : Reader SuperBound := do
  let (t, text) ← withText (deep superBound)
  match t with
  | .lifetime _ => pure .marker
  | .relaxed _ _ => pure .marker
  | .named path => pure (.trait path)
  | _ => pure (.other text)

/-- Reads a macro that is called for its items. -/
def macroCall : Reader String := do
  let _ ← optionalMark "::"
  let path ← separated "::" name
  mark "!"
  if path = ["macro_rules"] then
    let _ ← name
    anyGroup
    pure "macro_definition"
  else
    anyGroup
    pure "macro_invocation"

/-- The member of a trait that an item is. -/
def memberOf : Item → Member
  | .attribute _ => .blank
  | .innerAttribute => .blank
  | .importDecl _ => .other "use_declaration"
  | .module _ _ => .other "mod_item"
  | .typeAlias _ _ => .other "type_item"
  | .dataType kind _ => .other kind
  | .trait _ => .other "trait_item"
  | .function m => .method m
  | .other "empty_statement" => .blank
  | .other "const_item" => .associatedConst
  | .other "associated_type" => .associatedType
  | .other kind => .other kind

/-- Reads the alias of a type behind its keyword. -/
def aliasDecl : Reader Item := do
  let x ← name
  let _ ← optionalGenerics
  let _ ← optionalWhere
  mark "="
  let t ← type
  let _ ← optionalWhere
  mark ";"
  pure (.typeAlias x t)

/-- Reads an associated type, which has no value, behind its keyword. -/
def associatedType : Reader Unit := do
  let _ ← name
  let _ ← optionalGenerics
  let _ ← onlyIf (isMark ":") (deep bounds)
  let _ ← optionalWhere
  mark ";"

mutual

/-- Reads items in braces. -/
def itemBlock : Nat → Reader (List Item)
  | 0 => failure
  | n + 1 => do
    mark "\x7b"
    let items ← many (item n)
    mark "\x7d"
    pure items

/-- Reads a trait behind its visibility. -/
def traitDecl : Nat → Reader TraitDecl
  | 0 => failure
  | n + 1 => do
    let isUnsafe ← optionalKeyword "unsafe"
    keyword "trait"
    let x ← name
    let params ← optionalGenerics
    let supers ← onlyIf (isMark ":") do
      mark ":"
      separated "+" traitBound
    let _ ← optionalWhere
    mark "\x7b"
    let members ← many (item n)
    mark "\x7d"
    pure ⟨x, isUnsafe, params.map (·.text), supers.getD [], members.map memberOf⟩

/-- Reads an implementation. -/
def implementation : Nat → Reader Unit
  | 0 => failure
  | n + 1 => do
    let _ ← optionalKeyword "unsafe"
    keyword "impl"
    let _ ← optionalGenerics
    let _ ← optionalMark "!"
    aType
    if ← optionalKeyword "for" then aType
    let _ ← optionalWhere
    if ← optionalMark ";" then pure () else
      let _ ← itemBlock n

/-- Reads the value of a constant or a variant. -/
def value : Nat → Reader Unit
  | 0 => failure
  | n + 1 => deep fun m => expression (item n) m .free

/-- Reads an item that begins with a keyword, behind its visibility. -/
def keywordItem : Nat → Reader Item
  | 0 => failure
  | n + 1 => do
    match ← peek? with
    | none => failure
    | some t =>
      if t.kind != .word then failure
      else
        match t.text with
        | "use" => do
          keyword "use"
          let tree ← deep useTree
          mark ";"
          pure (.importDecl tree)
        | "mod" => do
          keyword "mod"
          let x ← name
          if ← optionalMark ";" then pure (.module x false)
          else
            let _ ← itemBlock n
            pure (.module x true)
        | "struct" => do
          keyword "struct"
          .dataType "struct_item" <$> structDecl
        | "enum" => do
          keyword "enum"
          .dataType "enum_item" <$> enumDecl (value n)
        | "union" => do
          keyword "union"
          .dataType "union_item" <$> unionDecl
        | "type" => do
          keyword "type"
          aliasDecl <|> (do
            associatedType
            pure (.other "associated_type"))
        | "static" => do
          keyword "static"
          let _ ← optionalKeyword "ref"
          let _ ← optionalKeyword "mut"
          let _ ← name
          mark ":"
          aType
          optionalValue (value n)
          pure (.other "static_item")
        | "let" => do
          deep (binding (item n))
          pure (.other "let_declaration")
        | _ =>
          (.trait <$> traitDecl n) <|>
          (do
            implementation n
            pure (.other "impl_item")) <|>
          (do
            let m ← function (deep (block (item n)))
            pure (.function m)) <|>
          (do
            keyword "const"
            let _ ← name
            mark ":"
            aType
            optionalValue (value n)
            pure (.other "const_item")) <|>
          (do
            keyword "extern"
            keyword "crate"
            let _ ← name
            if ← optionalKeyword "as" then
              let _ ← name
            mark ";"
            pure (.other "extern_crate_declaration")) <|>
          (do
            let _ ← optionalKeyword "unsafe"
            externModifier
            if ← optionalMark ";" then pure () else
              let _ ← itemBlock n
            pure (.other "foreign_mod_item"))

/-- Reads an item. -/
def item : Nat → Reader Item
  | 0 => failure
  | n + 1 => do
    if ← optionalMark ";" then pure (.other "empty_statement")
    else if ← isMark "#" then
      (.attribute <$> outerAttribute) <|> (do
        innerAttribute
        pure .innerAttribute)
    else
      (do
        visibility
        keywordItem n) <|>
      (.other <$> macroCall)

end

/-- Reads an expression that stands among the items of a file. -/
def looseExpression : Reader Item := do
  if ← isBlockLike then deep (blockLike (deep item))
  else
    deep fun n => expression (deep item) n .free
    mark ";"
  pure (.other "expression_statement")

/-- Reads an item of a file and notes whether a comment stands in front of it. -/
def entry : Reader Entry := do
  let next ← peek?
  let i ← deep item <|> looseExpression
  pure ⟨(next.map (·.commented)).getD false, i⟩

/-- Reads a whole file. -/
def file : Reader (List Entry) := do
  let entries ← many entry
  atEnd
  pure entries

end Reader

/-- The items of a source text, if it is well-formed. -/
def parse (source : String) : Option (List Entry) := do
  let ts ← tokens source
  let (entries, _) ← Reader.file ts
  pure entries

end TraitMock.Syntax
