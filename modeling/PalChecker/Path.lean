/-! # Paths of files -/

namespace PalChecker.Path

/-- What the slashes of a path separate. A part can be empty, or a dot. -/
def parts (path : String) : List String := path.splitOn "/"

/-- The part stays where it is. -/
def Stays (part : String) : Prop := part = "" ∨ part = "."

instance (part : String) : Decidable (Stays part) := inferInstanceAs (Decidable (_ ∨ _))

def names (path : String) : List String := (parts path).filter fun part => ¬ Stays part

/-- The last name of a path, empty if that leads upwards. -/
def fileName (path : String) : String :=
  match (names path).getLast? with
  | some ".." | none => ""
  | some name => name

end PalChecker.Path
