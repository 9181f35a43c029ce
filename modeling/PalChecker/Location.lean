/-! # Positions in a program text -/

namespace PalChecker

/-- A line and a column, both counted from one. -/
structure Location where
  line : Nat
  column : Nat
  deriving DecidableEq, Repr

namespace Location

/-- Where every text begins. -/
def start : Location := ⟨1, 1⟩

instance : Inhabited Location := ⟨start⟩

/-- The position after the character `c`: a line feed starts a line, anything else is one column. -/
def after (here : Location) (c : Char) : Location :=
  if c = '\n' then ⟨here.line + 1, 1⟩ else ⟨here.line, here.column + 1⟩

/-- The position after a text. -/
def advance (here : Location) (text : List Char) : Location := text.foldl after here

@[simp] theorem advance_nil (here : Location) : here.advance [] = here := rfl

@[simp] theorem advance_cons (here : Location) (c : Char) (text : List Char) :
    here.advance (c :: text) = (here.after c).advance text := rfl

@[simp] theorem advance_append (here : Location) (a b : List Char) :
    here.advance (a ++ b) = (here.advance a).advance b := List.foldl_append

/-- By line, then by column. -/
protected def compare (a b : Location) : Ordering := compareLex (compareOn line) (compareOn column) a b

instance : Ord Location := ⟨Location.compare⟩

/-- Shown as `line:column`. -/
def render (here : Location) : String := s!"{here.line}:{here.column}"

instance : ToString Location := ⟨render⟩

end Location

end PalChecker
