import TraitMock.Interface.Method

namespace TraitMock

/-- A trait as a mock implements it. -/
structure TraitImpl where
  name : String
  /-- The trait as it is named below the destination. -/
  path : String
  isUnsafe : Bool
  /-- The attribute that the implementation repeats. -/
  asyncMark : Option String
  methods : List Method

structure Interface where
  name : String
  /-- The trait, and the traits that it demands, each in front of those that it demands itself. -/
  traits : List TraitImpl
  /-- The imports that the signatures need. -/
  imports : ImportSet

/-- The methods of which no earlier one has the name. -/
def firstOfEachName (seen : List String) : List Method → List Method
  | [] => []
  | m :: rest =>
    if seen.contains m.name then firstOfEachName seen rest
    else m :: firstOfEachName (m.name :: seen) rest

namespace Interface

/-- The methods of all traits, for each name the first one. -/
def methods (i : Interface) : List Method := firstOfEachName [] (i.traits.flatMap (·.methods))

/-- The method of a name. -/
def method (i : Interface) (name : String) : Except GenerationError Method :=
  match i.methods.find? fun m => m.name = name with
  | some m => .ok m
  | none => .error (.unknownMethod i.name name)

end Interface

end TraitMock
