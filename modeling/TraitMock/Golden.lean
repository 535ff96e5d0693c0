import TraitMock.Testing.Spy
import TraitMock.Text.Utf8

namespace TraitMock.Golden

/-- The line that ends the commentary: three hyphens and a line feed. -/
def marker : List UInt8 := [45, 45, 45, 10]

/-- A line feed. -/
def lineFeed : UInt8 := 10

/-- The first line with its line feed, and the rest. -/
def cutLine : List UInt8 → List UInt8 × List UInt8
  | [] => ([], [])
  | b :: rest =>
    if b = lineFeed then ([b], rest)
    else
      let (line, rest') := cutLine rest
      (b :: line, rest')

private theorem cutLine_append (bytes : List UInt8) : (cutLine bytes).1 ++ (cutLine bytes).2 = bytes := by
  induction bytes with
  | nil => rfl
  | cons b rest ih =>
    unfold cutLine
    split
    · rfl
    · simp [ih]

private theorem cutLine_snd_length_lt (b : UInt8) (rest : List UInt8) :
    (cutLine (b :: rest)).2.length < (b :: rest).length := by
  have happend := congrArg List.length (cutLine_append (b :: rest))
  have hne : (cutLine (b :: rest)).1 ≠ [] := by
    unfold cutLine
    split <;> simp
  have hpos := List.length_pos_iff.2 hne
  simp only [List.length_append] at happend
  omega

/-- The bytes behind the first marker line. -/
def split : List UInt8 → Option (List UInt8)
  | [] => none
  | b :: rest =>
    let cut := cutLine (b :: rest)
    if cut.1 = marker then some cut.2 else split cut.2
termination_by bytes => bytes.length
decreasing_by exact cutLine_snd_length_lt b rest

/-- What reading a file gave: its bytes, or the reason why there are none. -/
abbrev Content := Except String (List UInt8)

/-- A failure of the golden file at a path. -/
def failure (path reason : String) : String := "golden: " ++ path ++ ": " ++ reason

/-- Reports a failure that ends the test. -/
def fail (t : Spy) (message : String) : Spy × Except Halt α := (t.fatal message, .error (.fatal message))

/-- The test data of the golden file at `path`, which has the given content. -/
def loadBytes (t : Spy) (path : String) (content : Content) : Spy × Except Halt (List UInt8) :=
  let t := t.helper
  match content with
  | .error reason => fail t (failure path reason)
  | .ok bytes =>
    match split bytes with
    | some data => (t, .ok data)
    | none => fail t (failure path "missing \"---\" marker line")

/-- The test data of a golden file as text. -/
def load (t : Spy) (path : String) (content : Content) : Spy × Except Halt String :=
  match loadBytes t.helper path content with
  | (t, .error halt) => (t, .error halt)
  | (t, .ok data) =>
    match Text.decodeUtf8 data with
    | .ok text => (t, .ok text)
    | .error e => fail t (failure path e.message)

end TraitMock.Golden
