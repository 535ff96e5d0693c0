namespace TraitMock.Signature

mutual

inductive SigType where
  /-- A path with generic arguments. -/
  | path (path : String) (args : List GenericArg)
  | reference (lifetime : Option String) (isMutable : Bool) (inner : SigType)
  | pointer (isMutable : Bool) (inner : SigType)
  | array (element : SigType) (length : String)
  | slice (element : SigType)
  | tuple (elements : List SigType)
  | parenthesized (inner : SigType)
  | dynamic (bounds : List Bound)
  | abstract (bounds : List Bound)
  /-- A function pointer, or a trait of functions with its parameters. -/
  | function (head : String) (params : List SigType) (result : Option SigType)
  | never

inductive GenericArg where
  | type (t : SigType)
  | lifetime (name : String)
  /-- A type that an associated type is equal to. -/
  | binding (name : String) (t : SigType)
  | const (text : String)

inductive Bound where
  /-- A trait, behind quantified lifetimes or a question mark. -/
  | trait (binder : Option String) (isRelaxed : Bool) (t : SigType)
  | lifetime (name : String)

end

/-- The lifetime of what is never dropped. -/
def staticLifetime : String := "'static"

namespace SigType

/-- A path without arguments. -/
def named (p : String) : SigType := .path p []

/-- Whether a type is the empty tuple. -/
def isUnit : SigType → Bool
  | .tuple [] => true
  | _ => false

def isNever : SigType → Bool
  | .never => true
  | _ => false

def isAbstract : SigType → Bool
  | .abstract _ => true
  | _ => false

def isDynamic : SigType → Bool
  | .dynamic _ => true
  | _ => false

def isReference : SigType → Bool
  | .reference .. => true
  | _ => false

def isSlice : SigType → Bool
  | .slice _ => true
  | _ => false

end SigType

/-- Whether a generic argument is a lifetime that ends. -/
def GenericArg.isShortLifetime : GenericArg → Bool
  | .lifetime l => l != staticLifetime
  | _ => false

/-- Whether a bound is a lifetime that ends. -/
def Bound.isShortLifetime : Bound → Bool
  | .lifetime l => l != staticLifetime
  | _ => false

mutual

/-- Whether a type, or one inside it, satisfies `p`. -/
def SigType.any (p : SigType → Bool) (t : SigType) : Bool :=
  p t || match t with
    | .path _ args => anyArg p args
    | .reference _ _ inner => inner.any p
    | .pointer _ inner => inner.any p
    | .array element _ => element.any p
    | .slice element => element.any p
    | .tuple elements => anyType p elements
    | .parenthesized inner => inner.any p
    | .dynamic bounds => anyBound p bounds
    | .abstract bounds => anyBound p bounds
    | .function _ params result => anyType p params || anyResult p result
    | .never => false

def anyType (p : SigType → Bool) : List SigType → Bool
  | [] => false
  | t :: rest => t.any p || anyType p rest

def anyResult (p : SigType → Bool) : Option SigType → Bool
  | none => false
  | some t => t.any p

def anyArg (p : SigType → Bool) : List GenericArg → Bool
  | [] => false
  | .type t :: rest => t.any p || anyArg p rest
  | .binding _ t :: rest => t.any p || anyArg p rest
  | .lifetime _ :: rest => anyArg p rest
  | .const _ :: rest => anyArg p rest

def anyBound (p : SigType → Bool) : List Bound → Bool
  | [] => false
  | .trait _ _ t :: rest => t.any p || anyBound p rest
  | .lifetime _ :: rest => anyBound p rest

end

namespace SigType

/-- Whether there is an `impl` type in `t`, which has no name. -/
def hasAbstract (t : SigType) : Bool := t.any isAbstract

def hasReference (t : SigType) : Bool := t.any isReference

/-- Whether a type names a lifetime that ends, or leaves out the lifetime of a reference, apart from what is
inside it. -/
def borrowsHere : SigType → Bool
  | .reference l _ _ => l != some staticLifetime
  | .path _ args => args.any GenericArg.isShortLifetime
  | .dynamic bounds => bounds.any Bound.isShortLifetime
  | .abstract bounds => bounds.any Bound.isShortLifetime
  | _ => false

/-- Whether values of a type may not outlive what they are borrowed from. -/
def borrows (t : SigType) : Bool := t.any borrowsHere

end SigType

mutual

/-- Whether a result of this type is borrowed: it has a reference or a lifetime that ends outside of function
types, which bind the lifetimes inside them. -/
def SigType.borrowsOutsideFunctions : SigType → Bool
  | .function .. => false
  | .reference .. => true
  | .path _ args => anyArgBorrows args
  | .pointer _ inner => inner.borrowsOutsideFunctions
  | .parenthesized inner => inner.borrowsOutsideFunctions
  | .array element _ => element.borrowsOutsideFunctions
  | .slice element => element.borrowsOutsideFunctions
  | .tuple elements => anyTypeBorrows elements
  | .dynamic bounds => anyBoundBorrows bounds
  | .abstract bounds => anyBoundBorrows bounds
  | .never => false

def anyTypeBorrows : List SigType → Bool
  | [] => false
  | t :: rest => t.borrowsOutsideFunctions || anyTypeBorrows rest

def anyArgBorrows : List GenericArg → Bool
  | [] => false
  | .lifetime l :: rest => l != staticLifetime || anyArgBorrows rest
  | .type t :: rest => t.borrowsOutsideFunctions || anyArgBorrows rest
  | .binding _ t :: rest => t.borrowsOutsideFunctions || anyArgBorrows rest
  | .const _ :: rest => anyArgBorrows rest

def anyBoundBorrows : List Bound → Bool
  | [] => false
  | .lifetime l :: rest => l != staticLifetime || anyBoundBorrows rest
  | .trait _ _ t :: rest => t.borrowsOutsideFunctions || anyBoundBorrows rest

end

/-- How an argument is recorded. -/
inductive Capture where
  /-- As a clone of the argument. -/
  | clone
  /-- As an owned copy of what the argument borrows. -/
  | owned
  /-- As a mark that names the type. -/
  | opaqueMark
  deriving DecidableEq, Repr

namespace SigType

/-- Whether a type is a trait object, perhaps in parentheses. -/
def isObject : SigType → Bool
  | .dynamic _ => true
  | .parenthesized inner => inner.isDynamic
  | _ => false

/-- How an argument of a type is recorded: a borrowed one by what it borrows, and only what can be named and
owned other than by a mark. -/
def capture (t : SigType) : Capture :=
  match t with
  | .reference _ _ inner =>
    if inner.isObject || inner.hasAbstract || inner.borrows then .opaqueMark else .owned
  | _ => if t.hasAbstract || t.borrows then .opaqueMark else .clone

end SigType

end TraitMock.Signature
