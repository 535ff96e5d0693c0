import TraitMock.LineDiff.Script

namespace TraitMock.LineDiff

/-- A script under work, seen from one of its operations: those before it, the nearest first, the operation itself, and
    those behind it. -/
structure Focus where
  before : List Operation
  here : Operation
  after : List Operation

namespace Focus

/-- Puts `n` equal lines that end where the operation began behind it. -/
def equalBehind (f : Focus) (prev : Operation) (n : Nat) : List Operation :=
  match f.after with
  | next :: rest =>
    if next.kind = .equal then next.growUp n :: rest
    else .keep (prev.oldEnd - n) (f.here.newEnd - n) n :: next :: rest
  | [] => [.keep (prev.oldEnd - n) (f.here.newEnd - n) n]

/-- Puts `n` equal lines that begin where the operation began in front of it. -/
def equalInFront (f : Focus) (next : Operation) (n : Nat) : List Operation :=
  match f.before with
  | prev :: rest =>
    if prev.kind = .equal then prev.growDown n :: rest
    else .keep next.oldStart f.here.newStart n :: prev :: rest
  | [] => [.keep next.oldStart f.here.newStart n]

/-- Moves an operation up once; none when it can go no further. Only an insertion slides over equal lines. -/
def up? (old new : Array String) (f : Focus) : Option Focus :=
  match f.before with
  | [] => none
  | prev :: rest =>
    match prev.kind with
    | .equal =>
      let n := agreeingBefore old new prev.oldEnd f.here.newEnd (min prev.oldLength f.here.newLength)
      if n = 0 then
        if prev.length = 0 then some { f with before := rest } else none
      else
        let prev' := prev.dropLast n
        some {
          before := if prev'.length = 0 then rest else prev' :: rest
          here := f.here.moveUp n
          after := f.equalBehind prev n }
    | kind =>
      if kind = f.here.kind then some ⟨rest, prev.growDown f.here.length, f.after⟩
      else some ⟨rest, f.here, prev :: f.after⟩

/-- Moves an operation down once; none when it can go no further. -/
def down? (old new : Array String) (f : Focus) : Option Focus :=
  match f.after with
  | [] => none
  | next :: rest =>
    match next.kind with
    | .equal =>
      let n := agreeing old new next.oldStart f.here.newStart (min next.oldLength f.here.newLength)
      if n = 0 then
        if next.length = 0 then some { f with after := rest } else none
      else
        let next' := next.dropFirst n
        some {
          before := f.equalInFront next n
          here := f.here.moveDown n
          after := if next'.length = 0 then rest else next' :: rest }
    | kind =>
      if kind = f.here.kind then some ⟨f.before, f.here.growDown next.length, rest⟩
      else some ⟨next :: f.before, f.here, rest⟩

/-- Repeats a move until it goes no further, at most `fuel` times. -/
def repeat_ (move : Focus → Option Focus) : Nat → Focus → Focus
  | 0, f => f
  | fuel + 1, f =>
    match move f with
    | some f' => repeat_ move fuel f'
    | none => f

end Focus

/-- Slides the operations of one kind, one after the other, up and then down. `before` holds the operations
already passed, the nearest first, and `moves` bounds the moves of one operation. -/
def slide (old new : Array String) (kind : Kind) (moves : Nat) (before : List Operation) :
    Nat → List Operation → List Operation
  | 0, after => before.reverse ++ after
  | _, [] => before.reverse
  | fuel + 1, here :: after =>
    if here.kind = kind then
      let f := (Focus.mk before here after).repeat_ (Focus.up? old new) moves
      let f := f.repeat_ (Focus.down? old new) moves
      slide old new kind moves (f.here :: f.before) fuel f.after
    else slide old new kind moves (here :: before) fuel after

/-- What has been read of a script but not yet passed on: equal lines, or a deletion and an insertion. -/
structure Held where
  equal? : Option Operation := none
  delete? : Option Operation := none
  insert? : Option Operation := none

namespace Held

def passEqual (h : Held) : List Operation := h.equal?.toList

/-- A deletion and an insertion together are a replacement. -/
def passEdit (h : Held) : List Operation :=
  match h.delete?, h.insert? with
  | some d, some i => [⟨.replace, d.oldStart, d.oldLength, i.newStart, i.newLength⟩]
  | some d, none => [d]
  | none, some i => [i]
  | none, none => []

/-- Joins an operation with one held before it. -/
def join (held? : Option Operation) (next : Operation) : Option Operation :=
  match held? with
  | some o => some (o.growDown next.length)
  | none => some next

/-- Reads one operation and passes on what it ends. -/
def step (h : Held) (o : Operation) : List Operation × Held :=
  match o.kind with
  | .equal => (h.passEdit, { equal? := join h.equal? o })
  | .delete => (h.passEqual, { h with equal? := none, delete? := join h.delete? o })
  | .insert => (h.passEqual, { h with equal? := none, insert? := join h.insert? o })
  | .replace => (h.passEqual ++ [o], { h with equal? := none })

end Held

/-- Joins operations of one kind that follow each other, and pairs deletions with insertions. -/
def gather (h : Held) : List Operation → List Operation
  | [] => h.passEqual ++ h.passEdit
  | o :: rest =>
    let (out, h') := h.step o
    out ++ gather h' rest

/-- The tidied script between two sequences of lines. -/
def operations (old new : Array String) : List Operation :=
  let plain := script old new
  let moves := 2 * (old.size + new.size + plain.length) + 2
  let deleted := slide old new .delete moves [] (2 * moves) plain
  gather {} (slide old new .insert moves [] (2 * moves) deleted)

end TraitMock.LineDiff
