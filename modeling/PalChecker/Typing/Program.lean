import PalChecker.Typing.State

/-!
# Checking names and types

One scope holds the declarations and is open for all statements. An expression has the type of its
leftmost value; the other side of each operator, comparison and assignment is compared with it.
-/

namespace PalChecker.Typing

/-! ## Expressions -/

def expression : Expr → State → Operand × State
  | .value stamp token, s =>
    let (type, s) := s.resolve token stamp.seq
    (⟨type, some token⟩, s)
  | .unary _ _ operand, s => expression operand s
  | .group _ inner, s => expression inner s
  | .binary stamp left _ right, s =>
    let (left, s) := expression left s
    let (right, s) := expression right s
    (left, s.compare left.type right stamp.seq)
  | .error _, s => (.unknown, s)

def condition (c : Condition) (s : State) : State :=
  let (left, s) := expression c.left s
  let (right, s) := expression c.right s
  s.compare left.type right c.stamp.seq

/-! ## Statements -/

/-- An output value that is a single operand is not checked. -/
def outputValue (e : Expr) (s : State) : State :=
  if e.IsSingle then s else (expression e s).2

mutual

def statement : Statement → State → State
  | .assignment stamp target value, s =>
    let (expected, s) := s.require target.token target.stamp.seq
    let (actual, s) := expression value s
    s.compare expected actual stamp.seq
  | .loop _ test body, s => statements body (condition test s)
  | .conditional _ test whenTrue none, s => statements whenTrue (condition test s)
  | .conditional _ test whenTrue (some otherwise), s =>
    statements otherwise (statements whenTrue (condition test s))
  | .input _ targets, s => targets.foldl (fun s t => (s.require t.token t.stamp.seq).2) s
  | .output _ values, s => values.foldl (fun s e => outputValue e s) s

def statements : List Statement → State → State
  | [], s => s
  | first :: rest, s => statements rest (statement first s)

end

/-! ## Programs -/

/-- A group without a type still declares its names. -/
def declaration (d : Declaration) (s : State) : State :=
  d.idents.foldl (fun s i => s.declare i.token (.ofDeclared d.type) d.stamp.seq) s

def declarations (groups : List Declaration) (s : State) : State :=
  groups.foldl (fun s d => declaration d s) s

def program (p : Program) : State :=
  (statements p.statements (declarations p.declarations State.empty.openScope)).closeScope

/-- What is wrong with the names and types of a program, in the order of the walk. -/
def check (p : Program) : List Finding := (program p).findings

def trace (p : Program) : List Event := (program p).trace ++ [.checked (check p).length]

end PalChecker.Typing
