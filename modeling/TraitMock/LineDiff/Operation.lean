namespace TraitMock.LineDiff

/-- What happens to a range of lines. -/
inductive Kind where
  | equal
  | delete
  | insert
  | replace
  deriving DecidableEq, Repr

/-- An operation on a range of old and a range of new lines; the range that an insertion or a deletion does
not have is empty and only says where it stands. -/
structure Operation where
  kind : Kind
  oldStart : Nat
  oldLength : Nat
  newStart : Nat
  newLength : Nat
  deriving DecidableEq, Repr

namespace Operation

def keep (oldStart newStart length : Nat) : Operation := ⟨.equal, oldStart, length, newStart, length⟩

def delete (oldStart oldLength newStart : Nat) : Operation := ⟨.delete, oldStart, oldLength, newStart, 0⟩

def insert (oldStart newStart newLength : Nat) : Operation := ⟨.insert, oldStart, 0, newStart, newLength⟩

def oldEnd (o : Operation) : Nat := o.oldStart + o.oldLength

def newEnd (o : Operation) : Nat := o.newStart + o.newLength

/-- The number of lines that the operation is about. -/
def length (o : Operation) : Nat := max o.oldLength o.newLength

/-- Gives the operation another length on the sides it has. -/
def withLength (o : Operation) (n : Nat) : Operation :=
  match o.kind with
  | .equal => { o with oldLength := n, newLength := n }
  | .delete => { o with oldLength := n }
  | .insert => { o with newLength := n }
  | .replace => o

/-- Moves the operation to the front by `n` lines. -/
def moveUp (o : Operation) (n : Nat) : Operation :=
  { o with oldStart := o.oldStart - n, newStart := o.newStart - n }

/-- Moves the operation to the back by `n` lines. -/
def moveDown (o : Operation) (n : Nat) : Operation :=
  { o with oldStart := o.oldStart + n, newStart := o.newStart + n }

/-- Takes in `n` more lines in front. -/
def growUp (o : Operation) (n : Nat) : Operation := (o.moveUp n).withLength (o.length + n)

/-- Takes in `n` more lines behind. -/
def growDown (o : Operation) (n : Nat) : Operation := o.withLength (o.length + n)

/-- Gives up the last `n` lines. -/
def dropLast (o : Operation) (n : Nat) : Operation := o.withLength (o.length - n)

/-- Gives up the first `n` lines. -/
def dropFirst (o : Operation) (n : Nat) : Operation := (o.moveDown n).withLength (o.length - n)

end Operation

/-- The lines of a text with their ends: a line feed, a carriage return, or both in the other order. `line` is
the line being read, reversed. -/
def linesFrom (line : List Char) : List Char → List (List Char)
  | [] => if line.isEmpty then [] else [line.reverse]
  | '\n' :: rest => ('\n' :: line).reverse :: linesFrom [] rest
  | '\r' :: '\n' :: rest => ('\n' :: '\r' :: line).reverse :: linesFrom [] rest
  | '\r' :: rest => ('\r' :: line).reverse :: linesFrom [] rest
  | c :: rest => linesFrom (c :: line) rest

/-- The lines of a text with their ends. -/
def linesWithEnds (s : String) : Array String := ((linesFrom [] s.toList).map String.ofList).toArray

end TraitMock.LineDiff
