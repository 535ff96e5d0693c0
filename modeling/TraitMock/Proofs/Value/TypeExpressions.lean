import TraitMock.Proofs.Text.Blanks
import TraitMock.Proofs.Text.Occurrences
import TraitMock.Proofs.Value.Shortening

namespace TraitMock.TypeName

open Syntax (IsPlain)
open Text (IsName joinPath)

section Expressions

/-- An identifier. -/
structure Ident where
  name : String
  plain : IsPlain name.toList

/-- A name behind the modules that lead to it. -/
structure QualifiedName where
  modules : List Ident
  ident : Ident

/-- A text that is written as it is: a constant, a length or the name of a calling convention. -/
structure Bare where
  text : String
  isName : IsName text

mutual

/-- An expression for a type. -/
inductive TypeExpr where
  | path (p : QualifiedName) (args : List Argument)
  | reference (lifetime : Option Ident) (isMutable : Bool) (inner : TypeExpr)
  | pointer (isMutable : Bool) (inner : TypeExpr)
  | slice (element : TypeExpr)
  | array (element : TypeExpr) (length : Bare)
  | tuple (elements : List TypeExpr)
  | function (lifetimes : List Ident) (isUnsafe : Bool) (convention : Option Bare) (params : List TypeExpr)
      (result : Option TypeExpr)
  | dynamic (bounds : List TraitBound)
  | parenthesized (inner : TypeExpr)
  | never

/-- A generic argument. -/
inductive Argument where
  | type (t : TypeExpr)
  | lifetime (name : Ident)
  /-- A type that an associated type is equal to. -/
  | binding (name : Ident) (t : TypeExpr)
  | const (value : Bare)

/-- A bound of a trait object. The lifetimes in front of a trait are those that it holds for. -/
inductive TraitBound where
  | trait (lifetimes : List Ident) (p : QualifiedName) (args : List Argument)
  /-- A trait of functions, with its parameters in parentheses. -/
  | functions (lifetimes : List Ident) (p : QualifiedName) (params : List TypeExpr) (result : Option TypeExpr)
  | lifetime (name : Ident)

end

/-- A piece of what is written for a type expression: a text, or a path. -/
inductive Piece where
  | text (s : String)
  | path (p : QualifiedName)

def lifetimeText (l : Ident) : String := "'" ++ l.name

/-- The lifetime of a reference with the blank behind it. -/
def referenceText : Option Ident → String
  | none => ""
  | some l => lifetimeText l ++ " "

/-- The lifetimes that a function or a trait holds for. -/
def binderText (lifetimes : List Ident) : String :=
  if lifetimes = [] then "" else "for<" ++ ", ".intercalate (lifetimes.map lifetimeText) ++ "> "

def conventionText : Option Bare → String
  | none => ""
  | some c => "extern \"" ++ c.text ++ "\" "

/-- Pieces with a text between them. -/
def listed (sep : String) (items : List (List Piece)) : List Piece := [.text sep].intercalate items

/-- Generic arguments in angle brackets, or nothing if there are none. -/
def argumentPieces (args : List (List Piece)) : List Piece :=
  if args = [] then [] else [.text "<"] ++ listed ", " args ++ [.text ">"]

/-- The result of a function behind its arrow, or nothing. -/
def resultPieces : Option (List Piece) → List Piece
  | none => []
  | some r => [.text " -> "] ++ r

/-- The parameters of a function up to the parenthesis behind them, and its result. -/
def parameterPieces (params : List (List Piece)) (result : Option (List Piece)) : List Piece :=
  listed ", " params ++ [.text ")"] ++ resultPieces result

mutual

/-- What is written for a type expression. -/
def TypeExpr.pieces : TypeExpr → List Piece
  | .path p args => [.path p] ++ argumentPieces (piecesOfArgs args)
  | .reference l isMutable inner =>
    [.text ("&" ++ referenceText l ++ (if isMutable then "mut " else ""))] ++ inner.pieces
  | .pointer isMutable inner => [.text (if isMutable then "*mut " else "*const ")] ++ inner.pieces
  | .slice element => [.text "["] ++ element.pieces ++ [.text "]"]
  | .array element length => [.text "["] ++ element.pieces ++ [.text "; "] ++ [.text length.text, .text "]"]
  | .tuple elements =>
    [.text "("] ++ listed ", " (piecesOfTypes elements) ++ [.text (if elements.length = 1 then ",)" else ")")]
  | .function lifetimes isUnsafe convention params result =>
    [.text (binderText lifetimes ++ (if isUnsafe then "unsafe " else "") ++ conventionText convention ++ "fn(")] ++
      parameterPieces (piecesOfTypes params) (piecesOfResult result)
  | .dynamic bounds => [.text "dyn "] ++ listed " + " (piecesOfBounds bounds)
  | .parenthesized inner => [.text "("] ++ inner.pieces ++ [.text ")"]
  | .never => [.text "!"]

def piecesOfTypes : List TypeExpr → List (List Piece)
  | [] => []
  | t :: rest => t.pieces :: piecesOfTypes rest

def piecesOfResult : Option TypeExpr → Option (List Piece)
  | none => none
  | some t => some t.pieces

def piecesOfArgs : List Argument → List (List Piece)
  | [] => []
  | .type t :: rest => t.pieces :: piecesOfArgs rest
  | .lifetime l :: rest => [.text (lifetimeText l)] :: piecesOfArgs rest
  | .binding name t :: rest => ([.text (name.name ++ " = ")] ++ t.pieces) :: piecesOfArgs rest
  | .const c :: rest => [.text c.text] :: piecesOfArgs rest

def piecesOfBounds : List TraitBound → List (List Piece)
  | [] => []
  | .trait lifetimes p args :: rest =>
    ([.text (binderText lifetimes), .path p] ++ argumentPieces (piecesOfArgs args)) :: piecesOfBounds rest
  | .functions lifetimes p params result :: rest =>
    ([.text (binderText lifetimes), .path p] ++ [.text "("] ++
      parameterPieces (piecesOfTypes params) (piecesOfResult result)) :: piecesOfBounds rest
  | .lifetime l :: rest => [.text (lifetimeText l)] :: piecesOfBounds rest

end

end Expressions

section Spelling

namespace QualifiedName

variable (p : QualifiedName)

/-- The name behind its modules, as it is qualified. -/
def full : String := joinPath (p.modules.map Ident.name ++ [p.ident.name])

/-- The last segment alone. -/
def last : String := p.ident.name

/-- The last segment behind what is left of the modules. -/
def kept : String := String.ofList (p.modules.flatMap fun m => remnant m.name.toList) ++ p.ident.name

/-- All modules have names of letters, numbers and underscores. -/
def HasSimpleModules : Prop := ∀ m ∈ p.modules, ∀ c ∈ m.name.toList, isIdentChar c = true

end QualifiedName

def Piece.spelled (spell : QualifiedName → String) : Piece → String
  | .text s => s
  | .path p => spell p

def Piece.path? : Piece → Option QualifiedName
  | .text _ => none
  | .path p => some p

/-- Pieces one behind the other, where every path is spelled in some way. -/
def spelled (spell : QualifiedName → String) (ps : List Piece) : String := String.join (ps.map (Piece.spelled spell))

namespace TypeExpr

variable (t : TypeExpr)

/-- The expression with every path spelled in some way. -/
def text (spell : QualifiedName → String) : String := spelled spell t.pieces

/-- The paths in the expression, from left to right. -/
def paths : List QualifiedName := t.pieces.filterMap Piece.path?

end TypeExpr

section Pieces

variable (spell : QualifiedName → String)

@[simp] theorem spelled_nil : spelled spell [] = "" := rfl

@[simp] theorem spelled_cons (x : Piece) (ps : List Piece) :
    spelled spell (x :: ps) = x.spelled spell ++ spelled spell ps := by
  rw [spelled, List.map_cons, String.join_cons]
  rfl

@[simp]
theorem spelled_append (ps qs : List Piece) :
    spelled spell (ps ++ qs) = spelled spell ps ++ spelled spell qs := by
  induction ps with
  | nil => simp
  | cons x ps ih => simp [ih, String.append_assoc]

@[simp] theorem spelled_text (s : String) : Piece.spelled spell (.text s) = s := rfl

@[simp] theorem spelled_path (p : QualifiedName) : Piece.spelled spell (.path p) = spell p := rfl

end Pieces

/-- Pieces whose text is shortened path by path, so that no colon is left. -/
structure Shortens (ps : List Piece) : Prop where
  short_eq : short (spelled QualifiedName.full ps) = spelled QualifiedName.kept ps
  isName : IsName (spelled QualifiedName.kept ps)

theorem isName_ident (i : Ident) : IsName i.name := fun hcolon =>
  Syntax.isNameContinue_ne (i.plain.2 ':' hcolon) (by decide) rfl

private theorem short_full (p : QualifiedName) : short p.full = p.kept := by
  obtain ⟨modules, ident⟩ := p
  induction modules with
  | nil => simpa [QualifiedName.full, QualifiedName.kept, joinPath] using short_of_isName (isName_ident ident)
  | cons m modules ih =>
    have hjoined : QualifiedName.full ⟨m :: modules, ident⟩ =
        m.name ++ "::" ++ QualifiedName.full ⟨modules, ident⟩ := by
      rw [QualifiedName.full, List.map_cons, List.cons_append, Text.joinPath_cons (by simp)]
      rfl
    rw [hjoined, short_segment (isName_ident m), ih]
    simp [QualifiedName.kept, String.append_assoc]

private theorem isName_kept (p : QualifiedName) : IsName p.kept := by
  refine isName_append (fun hcolon => ?_) (isName_ident p.ident)
  obtain ⟨m, -, hm⟩ := List.mem_flatMap.mp (String.toList_ofList ▸ hcolon)
  exact isName_ident m ((List.rdropWhile_prefix isIdentChar m.name.toList).mem hm)

section Closure

variable {ps qs : List Piece} {s sep : String}

theorem shortens_text (hs : IsName s) : Shortens [.text s] where
  short_eq := by simpa using short_of_isName hs
  isName := by simpa using hs

theorem shortens_nil : Shortens [] where
  short_eq := short_of_isName (s := "") (by decide)
  isName := by simp [IsName]

theorem shortens_path (p : QualifiedName) : Shortens [.path p] where
  short_eq := by simpa using short_full p
  isName := by simpa using isName_kept p

theorem Shortens.front (h : Shortens ps) (hs : IsFront s) : Shortens (.text s :: ps) where
  short_eq := by
    simp only [spelled_cons, spelled_text]
    rw [short_front hs, h.short_eq]
  isName := by simpa using isName_append hs.1 h.isName

theorem Shortens.between (hp : Shortens ps) (hq : Shortens qs) (hs : IsSeparator s) :
    Shortens (ps ++ [.text s] ++ qs) where
  short_eq := by
    simp only [spelled_append, spelled_cons, spelled_nil, spelled_text, String.append_empty]
    rw [short_between hs, hp.short_eq, hq.short_eq]
  isName := by simpa using isName_append hp.isName (isName_append hs.1.1 hq.isName)

theorem Shortens.close (h : Shortens ps) (hs : IsSeparator s) : Shortens (ps ++ [.text s]) := by
  simpa using h.between shortens_nil hs

theorem shortens_listed (hsep : IsSeparator sep) {items : List (List Piece)} (h : ∀ ps ∈ items, Shortens ps) :
    Shortens (listed sep items) := by
  induction items with
  | nil => exact shortens_nil
  | cons ps items ih =>
    obtain ⟨hfirst, hrest⟩ := List.forall_mem_cons.mp h
    by_cases hnil : items = []
    · simpa [hnil, listed] using hfirst
    · rw [listed, List.intercalate_cons_of_ne_nil hnil, ← listed]
      exact hfirst.between (ih hrest) hsep

theorem Shortens.arguments (hp : Shortens ps) {args : List (List Piece)} (h : ∀ a ∈ args, Shortens a) :
    Shortens (ps ++ argumentPieces args) := by
  unfold argumentPieces
  split
  · rwa [List.append_nil]
  · have hlisted : Shortens (listed ", " args) := shortens_listed (by decide) h
    have hinner := hp.between hlisted (s := "<") (by decide)
    simpa using hinner.close (s := ">") (by decide)

theorem shortens_parameters {params : List (List Piece)} (h : ∀ a ∈ params, Shortens a)
    {result : Option (List Piece)} (hr : ∀ r ∈ result, Shortens r) : Shortens (parameterPieces params result) := by
  have hparams : Shortens (listed ", " params) := shortens_listed (by decide) h
  cases result with
  | none => simpa [parameterPieces, resultPieces] using hparams.close (s := ")") (by decide)
  | some r =>
    have harrow := (hr r rfl).front (s := " -> ") (by decide)
    exact hparams.between harrow (by decide)

end Closure

theorem isName_lifetimeText (l : Ident) : IsName (lifetimeText l) := isName_append (by decide) (isName_ident l)

private theorem isFront_referenceText (l : Option Ident) : IsFront (referenceText l) := by
  cases l with
  | none => exact by decide
  | some l => exact IsSeparator.isFront_append (by decide) (isName_lifetimeText l)

theorem isFront_binderText (lifetimes : List Ident) : IsFront (binderText lifetimes) := by
  unfold binderText
  split
  · decide
  · refine IsSeparator.isFront_append (by decide) (isName_append (by decide) ?_)
    exact isName_intercalate (by decide) (List.forall_mem_map.mpr fun l _ => isName_lifetimeText l)

private theorem isFront_conventionText (c : Option Bare) : IsFront (conventionText c) := by
  cases c with
  | none => exact by decide
  | some c => exact IsSeparator.isFront_append (by decide) (isName_append (by decide) c.isName)

theorem isFront_optional (b : Bool) {s : String} (hs : IsFront s) : IsFront (if b then s else "") := by
  cases b with
  | false => exact (by decide : IsFront "")
  | true => exact hs

mutual

/-- A type expression is shortened path by path, whatever its structure. -/
theorem shortens_pieces : (t : TypeExpr) → Shortens t.pieces
  | .path p args => by
    rw [TypeExpr.pieces]
    exact (shortens_path p).arguments (shortens_args args)
  | .reference l isMutable inner => by
    rw [TypeExpr.pieces]
    exact (shortens_pieces inner).front (.append (.append (by decide) (isFront_referenceText l))
      (isFront_optional isMutable (by decide)))
  | .pointer isMutable inner => by
    rw [TypeExpr.pieces]
    exact (shortens_pieces inner).front (by cases isMutable <;> decide)
  | .slice element => by
    rw [TypeExpr.pieces]
    exact ((shortens_pieces element).front (by decide)).close (by decide)
  | .array element length => by
    have hlength := (shortens_text length.isName).close (s := "]") (by decide)
    rw [TypeExpr.pieces]
    exact ((shortens_pieces element).front (by decide)).between hlength (by decide)
  | .tuple elements => by
    rw [TypeExpr.pieces]
    exact ((shortens_listed (by decide) (shortens_types elements)).front (by decide)).close (by split <;> decide)
  | .function lifetimes isUnsafe convention params result => by
    rw [TypeExpr.pieces]
    exact (shortens_parameters (shortens_types params) (shortens_result result)).front
      (.append (.append (.append (isFront_binderText lifetimes) (isFront_optional isUnsafe (by decide)))
        (isFront_conventionText convention)) (by decide))
  | .dynamic bounds => by
    rw [TypeExpr.pieces]
    exact (shortens_listed (by decide) (shortens_bounds bounds)).front (by decide)
  | .parenthesized inner => by
    rw [TypeExpr.pieces]
    exact ((shortens_pieces inner).front (by decide)).close (by decide)
  | .never => shortens_text (by decide)

theorem shortens_types : (ts : List TypeExpr) → ∀ ps ∈ piecesOfTypes ts, Shortens ps
  | [] => by simp [piecesOfTypes]
  | t :: rest => by
    rw [piecesOfTypes]
    exact List.forall_mem_cons.mpr ⟨shortens_pieces t, shortens_types rest⟩

theorem shortens_result : (result : Option TypeExpr) → ∀ ps ∈ piecesOfResult result, Shortens ps
  | none => by simp [piecesOfResult]
  | some t => by simpa [piecesOfResult] using shortens_pieces t

theorem shortens_args : (args : List Argument) → ∀ ps ∈ piecesOfArgs args, Shortens ps
  | [] => by simp [piecesOfArgs]
  | .type t :: rest => by
    rw [piecesOfArgs]
    exact List.forall_mem_cons.mpr ⟨shortens_pieces t, shortens_args rest⟩
  | .lifetime l :: rest => by
    rw [piecesOfArgs]
    exact List.forall_mem_cons.mpr ⟨shortens_text (isName_lifetimeText l), shortens_args rest⟩
  | .binding name t :: rest => by
    have hfront : IsFront (name.name ++ " = ") := IsSeparator.isFront_append (by decide) (isName_ident name)
    rw [piecesOfArgs]
    exact List.forall_mem_cons.mpr ⟨(shortens_pieces t).front hfront, shortens_args rest⟩
  | .const c :: rest => by
    rw [piecesOfArgs]
    exact List.forall_mem_cons.mpr ⟨shortens_text c.isName, shortens_args rest⟩

theorem shortens_bounds : (bounds : List TraitBound) → ∀ ps ∈ piecesOfBounds bounds, Shortens ps
  | [] => by simp [piecesOfBounds]
  | .trait lifetimes p args :: rest => by
    have hname := (shortens_path p).front (isFront_binderText lifetimes)
    rw [piecesOfBounds]
    exact List.forall_mem_cons.mpr ⟨hname.arguments (shortens_args args), shortens_bounds rest⟩
  | .functions lifetimes p params result :: rest => by
    have hname := (shortens_path p).front (isFront_binderText lifetimes)
    have hparams := shortens_parameters (shortens_types params) (shortens_result result)
    rw [piecesOfBounds]
    exact List.forall_mem_cons.mpr ⟨hname.between hparams (by decide), shortens_bounds rest⟩
  | .lifetime l :: rest => by
    rw [piecesOfBounds]
    exact List.forall_mem_cons.mpr ⟨shortens_text (isName_lifetimeText l), shortens_bounds rest⟩

end

/-- Paths that are spelled in two ways give the same text if they are spelled the same. -/
theorem spelled_congr {f g : QualifiedName → String} {ps : List Piece}
    (h : ∀ p ∈ ps.filterMap Piece.path?, f p = g p) : spelled f ps = spelled g ps := by
  refine congrArg String.join (List.map_congr_left fun x hx => ?_)
  cases x with
  | text s => rfl
  | path p => exact h p (List.mem_filterMap.mpr ⟨.path p, hx, rfl⟩)

/-- If one spelling is never shorter than another, two texts are of the same length only if all paths are. -/
theorem length_spelled {f g : QualifiedName → String} (hle : ∀ p, (f p).length ≤ (g p).length) (ps : List Piece) :
    (spelled f ps).length ≤ (spelled g ps).length ∧
      ((spelled f ps).length = (spelled g ps).length →
        ∀ p ∈ ps.filterMap Piece.path?, (f p).length = (g p).length) := by
  induction ps with
  | nil => simp
  | cons x ps ih =>
    obtain ⟨hshorter, hsame⟩ := ih
    cases x with
    | text s =>
      simp only [spelled_cons, spelled_text, String.length_append, List.filterMap_cons, Piece.path?]
      exact ⟨by omega, fun heq => hsame (by omega)⟩
    | path p =>
      have hp := hle p
      simp only [spelled_cons, spelled_path, String.length_append, List.filterMap_cons, Piece.path?,
        List.forall_mem_cons]
      exact ⟨by omega, fun heq => ⟨by omega, hsame (by omega)⟩⟩

private theorem length_last_le (p : QualifiedName) : p.last.length ≤ p.kept.length := by
  rw [QualifiedName.kept, String.length_append]
  exact Nat.le_add_left _ _

private theorem length_last_eq_iff (p : QualifiedName) : p.last.length = p.kept.length ↔ p.HasSimpleModules := by
  have hnone : (p.modules.flatMap fun m => remnant m.name.toList) = [] ↔ p.HasSimpleModules := by
    simp only [List.flatMap_eq_nil_iff, remnant_eq_nil_iff]
    rfl
  rw [← hnone, ← List.length_eq_zero_iff, QualifiedName.kept, QualifiedName.last, String.length_append,
    String.length_ofList]
  omega

private theorem QualifiedName.HasSimpleModules.kept_eq {p : QualifiedName} (h : p.HasSimpleModules) : p.kept = p.last := by
  have hnone : (p.modules.flatMap fun m => remnant m.name.toList) = [] :=
    List.flatMap_eq_nil_iff.mpr fun m hm => remnant_eq_nil_iff.mpr (h m hm)
  simp [QualifiedName.kept, QualifiedName.last, hnone]

end Spelling

/-- What is left of a type expression when its qualified name is shortened: the expression with the last segment of each
    path, behind what is left of its modules. That is the last segment alone for every path exactly if all modules have
    names of letters, numbers and underscores. In any case there is no double colon in it, and it is not shortened any
    further. -/
theorem short_of_typeExpr (t : TypeExpr) :
    short (t.text QualifiedName.full) = t.text QualifiedName.kept ∧
    (short (t.text QualifiedName.full) = t.text QualifiedName.last ↔ ∀ p ∈ t.paths, p.HasSimpleModules) ∧
    Text.contains (short (t.text QualifiedName.full)) "::" = false ∧
    short (short (t.text QualifiedName.full)) = short (t.text QualifiedName.full) := by
  obtain ⟨hshort, hname⟩ := shortens_pieces t
  change short (t.text QualifiedName.full) = t.text QualifiedName.kept at hshort
  rw [hshort]
  refine ⟨rfl, ⟨fun heq p hp => ?_, fun h => ?_⟩, ?_, short_of_isName hname⟩
  · have hlengths := (length_spelled length_last_le t.pieces).2 (congrArg String.length heq.symm)
    exact (length_last_eq_iff p).mp (hlengths p hp)
  · exact spelled_congr fun p hp => QualifiedName.HasSimpleModules.kept_eq (h p hp)
  · rw [← Bool.not_eq_true, Text.contains_iff]
    exact fun hcolons => hname (hcolons.subset (by decide))

section Collection

/-- The middle dot can stand in a name. -/
theorem isNameContinue_middleDot : Text.isNameContinue '·' = true := by
  have hwithin : Text.withinBoundaries Text.nameContinueBounds 183 = true := by
    rw [Text.nameContinueBounds, Text.boundaries_eq]
    dsimp only [Text.Tables.nameContinueGaps]
    simp only [List.map_cons, List.map_nil]
    repeat rw [String.toList_ofList]
    decide +kernel
  simp [Text.isNameContinue, Text.classOf, hwithin]

/-- The middle dot is neither a letter nor a number. -/
theorem isIdentChar_middleDot : isIdentChar '·' = false := by
  have hletter : Text.withinBoundaries Text.alphabeticBounds 183 = false := by
    rw [Text.alphabeticBounds, Text.boundaries_eq]
    dsimp only [Text.Tables.alphabeticGaps]
    simp only [List.map_cons, List.map_nil]
    repeat rw [String.toList_ofList]
    decide +kernel
  have hnumber : Text.withinBoundaries Text.numericBounds 183 = false := by
    rw [Text.numericBounds, Text.boundaries_eq]
    dsimp only [Text.Tables.numericGaps]
    simp only [List.map_cons, List.map_nil]
    repeat rw [String.toList_ofList]
    decide +kernel
  simp [isIdentChar, Text.isLetterOrNumber, Text.isLetter, Text.classOf, hletter, hnumber]

private theorem isPlain_collections : IsPlain "col·leccions".toList := by
  have hsplit : "col·leccions".toList = "col".toList ++ '·' :: "leccions".toList := rfl
  have hfront : ∀ c ∈ "col".toList, Text.isNameContinue c = true := List.all_eq_true.mp (by decide)
  have hback : ∀ c ∈ "leccions".toList, Text.isNameContinue c = true := List.all_eq_true.mp (by decide)
  refine ⟨⟨'c', rfl, by decide⟩, fun c hc => ?_⟩
  rw [hsplit, List.mem_append, List.mem_cons] at hc
  rcases hc with hc | rfl | hc
  · exact hfront c hc
  · exact isNameContinue_middleDot
  · exact hback c hc

/-- A type in the module for the collections of a market. -/
def collectionOfMarket : TypeExpr :=
  .path ⟨[⟨"mercat", by decide⟩, ⟨"col·leccions", isPlain_collections⟩], ⟨"Llista", by decide⟩⟩ []

/-- The type is shown behind half of the name of its module. -/
theorem collection_keeps_half_a_module :
    collectionOfMarket.text QualifiedName.full = "mercat::col·leccions::Llista" ∧
    short "mercat::col·leccions::Llista" = "col·Llista" ∧
    collectionOfMarket.text QualifiedName.last = "Llista" ∧
    ¬∀ t : TypeExpr, short (t.text QualifiedName.full) = t.text QualifiedName.last := by
  have hfull : collectionOfMarket.text QualifiedName.full = "mercat::col·leccions::Llista" := by decide
  have hlast : collectionOfMarket.text QualifiedName.last = "Llista" := by decide
  have hmarket : remnant "mercat".toList = [] := remnant_eq_nil_iff.mpr (List.all_eq_true.mp (by decide))
  have hidents : ∀ d ∈ "leccions".toList, isIdentChar d = true := List.all_eq_true.mp (by decide)
  have hcollections : remnant "col·leccions".toList = "col·".toList :=
    remnant_append isIdentChar_middleDot "col".toList hidents
  have hshort : short "mercat::col·leccions::Llista" = "col·Llista" := by
    have hpath : "mercat::col·leccions::Llista" = "mercat" ++ "::" ++ ("col·leccions" ++ "::" ++ "Llista") := by decide
    rw [hpath, short_segment (by decide), short_segment (by decide), short_of_isName (by decide), hmarket, hcollections]
    decide
  refine ⟨hfull, hshort, hlast, fun hall => ?_⟩
  have hclaimed := hall collectionOfMarket
  rw [hfull, hshort, hlast] at hclaimed
  exact absurd hclaimed (by decide)

end Collection

end TraitMock.TypeName
