import TraitMock.Testing.Cleanup

namespace TraitMock.Must

/-- The value, or a panic with the message of the failure. -/
def value : Except String α → Except Halt α
  | .ok a => .ok a
  | .error message => .error (.panic (.text message))

end TraitMock.Must
