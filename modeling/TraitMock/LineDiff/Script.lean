import TraitMock.LineDiff.Operation

namespace TraitMock.LineDiff

/-- A stretch of old lines and a stretch of new lines. -/
structure Region where
  oldStart : Nat
  oldEnd : Nat
  newStart : Nat
  newEnd : Nat
  deriving DecidableEq, Repr

namespace Region

def oldLength (r : Region) : Nat := r.oldEnd - r.oldStart

def newLength (r : Region) : Nat := r.newEnd - r.newStart

end Region

/-- How many of the next `limit` lines agree, from position `i` of the old and `j` of the new lines on. -/
def agreeing (old new : Array String) (i j : Nat) : Nat → Nat
  | 0 => 0
  | limit + 1 =>
    match old[i]?, new[j]? with
    | some a, some b => if a == b then agreeing old new (i + 1) (j + 1) limit + 1 else 0
    | _, _ => 0

/-- How many of the last `limit` lines before `i` and `j` agree. -/
def agreeingBefore (old new : Array String) (i j : Nat) : Nat → Nat
  | 0 => 0
  | limit + 1 =>
    if i = 0 ∨ j = 0 then 0
    else match old[i - 1]?, new[j - 1]? with
      | some a, some b => if a == b then agreeingBefore old new (i - 1) (j - 1) limit + 1 else 0
      | _, _ => 0

/-- The furthest position on each diagonal, from `-reach` to `reach`. -/
structure Frontier where
  reach : Nat
  furthest : Array Nat

namespace Frontier

/-- A frontier that stands at the start, on the diagonal beside the first one. -/
def start (reach : Nat) : Frontier := ⟨reach, Array.replicate (2 * reach + 3) 0⟩

def at_ (f : Frontier) (k : Int) : Nat := f.furthest.getD (k + f.reach + 1).toNat 0

def put (f : Frontier) (k : Int) (x : Nat) : Frontier :=
  { f with furthest := f.furthest.setIfInBounds (k + f.reach + 1).toNat x }

/-- The old position from which a path of `d` edits goes on along diagonal `k`: that of the better of the two
neighbours, one step further where it comes from the diagonal below. -/
def origin (f : Frontier) (d : Nat) (k : Int) : Nat :=
  if k = -d ∨ (k ≠ d ∧ f.at_ (k - 1) < f.at_ (k + 1)) then f.at_ (k + 1) else f.at_ (k - 1) + 1

end Frontier

/-- The diagonals of paths with `d` edits, the highest first. -/
def diagonals (d : Nat) : List Int := (List.range (d + 1)).map fun (i : Nat) => (d : Int) - 2 * i

/-- Grows the forward paths of `d` edits along the given diagonals, until one meets a backward path. -/
def growForward (old new : Array String) (r : Region) (d : Nat) (backward : Frontier) (f : Frontier) :
    List Int → Frontier × Option (Nat × Nat)
  | [] => (f, none)
  | k :: ks =>
    let delta : Int := (r.oldLength : Int) - r.newLength
    let x := f.origin d k
    let y := ((x : Int) - k).toNat
    let advance :=
      if x < r.oldLength ∧ y < r.newLength then
        agreeing old new (r.oldStart + x) (r.newStart + y) (min (r.oldLength - x) (r.newLength - y))
      else 0
    let f := f.put k (x + advance)
    let meets := delta % 2 ≠ 0 ∧ (k - delta).natAbs + 1 ≤ d ∧
      r.oldLength ≤ x + advance + backward.at_ (-(k - delta))
    if meets then (f, some (r.oldStart + x, r.newStart + y))
    else growForward old new r d backward f ks

/-- Grows the backward paths of `d` edits along the given diagonals, until one meets a forward path. -/
def growBackward (old new : Array String) (r : Region) (d : Nat) (forward : Frontier) (f : Frontier) :
    List Int → Frontier × Option (Nat × Nat)
  | [] => (f, none)
  | k :: ks =>
    let delta : Int := (r.oldLength : Int) - r.newLength
    let x := f.origin d k
    let y := ((x : Int) - k).toNat
    let advance :=
      if x < r.oldLength ∧ y < r.newLength then
        agreeingBefore old new (r.oldEnd - x) (r.newEnd - y) (min (r.oldLength - x) (r.newLength - y))
      else 0
    let f := f.put k (x + advance)
    let meets := delta % 2 = 0 ∧ (k - delta).natAbs ≤ d ∧
      r.oldLength ≤ x + advance + forward.at_ (-(k - delta))
    if meets then (f, some (r.oldEnd - (x + advance), r.newEnd - (y + advance)))
    else growBackward old new r d forward f ks

/-- Tries `left` numbers of edits from `d` on, until two paths meet. -/
def meetFrom (old new : Array String) (r : Region) (forward backward : Frontier) (d : Nat) :
    Nat → Option (Nat × Nat)
  | 0 => none
  | left + 1 =>
    match growForward old new r d backward forward (diagonals d) with
    | (_, some p) => some p
    | (forward, none) =>
      match growBackward old new r d forward backward (diagonals d) with
      | (_, some p) => some p
      | (backward, none) => meetFrom old new r forward backward (d + 1) left

/-- The point at which a region is split: on a shortest path, no further than half the edits from either
end. -/
def meeting? (old new : Array String) (r : Region) : Option (Nat × Nat) :=
  let most := (r.oldLength + r.newLength + 1) / 2 + 1
  meetFrom old new r (.start most) (.start most) 0 most

/-- The operations of a region. `depth` bounds how often it is split; every split leaves fewer lines. -/
def conquer (old new : Array String) : Nat → Region → List Operation
  | 0, _ => []
  | depth + 1, r =>
    let front := agreeing old new r.oldStart r.newStart (min r.oldLength r.newLength)
    let r₁ : Region := { r with oldStart := r.oldStart + front, newStart := r.newStart + front }
    let back := agreeingBefore old new r₁.oldEnd r₁.newEnd (min r₁.oldLength r₁.newLength)
    let r₂ : Region := { r₁ with oldEnd := r₁.oldEnd - back, newEnd := r₁.newEnd - back }
    let middle :=
      if r₂.oldLength = 0 ∧ r₂.newLength = 0 then []
      else if r₂.newLength = 0 then [.delete r₂.oldStart r₂.oldLength r₂.newStart]
      else if r₂.oldLength = 0 then [.insert r₂.oldStart r₂.newStart r₂.newLength]
      else match meeting? old new r₂ with
        | some (x, y) =>
          conquer old new depth { r₂ with oldEnd := x, newEnd := y } ++
            conquer old new depth { r₂ with oldStart := x, newStart := y }
        | none =>
          [.delete r₂.oldStart r₂.oldLength r₂.newStart, .insert r₂.oldStart r₂.newStart r₂.newLength]
    (if front = 0 then [] else [.keep r.oldStart r.newStart front]) ++ middle ++
      (if back = 0 then [] else [.keep r₂.oldEnd r₂.newEnd back])

/-- A shortest edit script. -/
def script (old new : Array String) : List Operation :=
  conquer old new (old.size + new.size + 1) ⟨0, old.size, 0, new.size⟩

end TraitMock.LineDiff
