import PalChecker.Trace
import PalChecker.Typing.SymbolTable

/-!
# The state of a type check

A check keeps the declared names and a journal of what it noticed. Each operation gives back a type even
where something is wrong, so that one mistake does not end the check.
-/

namespace PalChecker.Typing

inductive Note where
  | found (finding : Finding)
  /-- A name was declared while no scope was open. -/
  | unscoped (name : String)
  deriving DecidableEq, Repr

namespace Note

def finding? : Note → Option Finding
  | found f => some f
  | unscoped _ => none

def event : Note → Event
  | found f => .found f
  | unscoped name => .unscoped name

end Note

structure State where
  table : SymbolTable
  /-- Latest first. -/
  journal : List Note
  deriving DecidableEq, Repr

/-- The type of a part of an expression, with the token that stands for it in a message. -/
structure Operand where
  type : ValueType
  token : Option Token
  deriving DecidableEq, Repr

/-- The operand of an expression that could not be read. -/
def Operand.unknown : Operand := ⟨.undefined, none⟩

namespace State

def empty : State := ⟨.empty, []⟩

def openScope (s : State) : State := { s with table := s.table.enter }

def closeScope (s : State) : State := { s with table := s.table.exit }

def note (n : Note) (s : State) : State := { s with journal := n :: s.journal }

def report (seq : SeqNumber) (d : Diagnostic) (s : State) : State := s.note (.found ⟨seq, d⟩)

/-- Declares the name `token`; a token that is no identifier declares nothing. -/
def declare (token : Token) (type : ValueType) (seq : SeqNumber) (s : State) : State :=
  if token.kind = .identifier then
    match s.table.insert ⟨token, type⟩ with
    | .added table => { s with table }
    | .taken holder => s.report seq (.alreadyDeclared token holder)
    | .unscoped => s.note (.unscoped token.value)
  else s

/-- The declared type of a name. One that is not declared is reported and has no known type. -/
def require (token : Token) (seq : SeqNumber) (s : State) : ValueType × State :=
  match s.table.lookup? token.value with
  | some symbol => (symbol.type, s)
  | none => (.undefined, s.report seq (.notDeclared token))

/-- The type of a value: declared for a name, fixed for a literal. -/
def resolve (token : Token) (seq : SeqNumber) (s : State) : ValueType × State :=
  if token.kind = .identifier then s.require token seq
  else ((ValueType.ofLiteral? token.kind).getD .undefined, s)

/-- Reports an operand whose type conflicts with the one expected. -/
def compare (expected : ValueType) (actual : Operand) (seq : SeqNumber) (s : State) : State :=
  match actual.token with
  | none => s
  | some token =>
    if expected.Conflicts actual.type then s.report seq (.typeConflict token actual.type expected)
    else s

def findings (s : State) : List Finding := s.journal.reverse.filterMap Note.finding?

def trace (s : State) : List Event := s.journal.reverse.map Note.event

/-- The same names, and nothing noticed yet. -/
def cleared (s : State) : State := { s with journal := [] }

/-! ## What each operation leaves -/

@[simp] theorem findings_report (seq : SeqNumber) (d : Diagnostic) (s : State) :
    (s.report seq d).findings = s.findings ++ [⟨seq, d⟩] := by
  unfold findings report note
  rw [List.reverse_cons, List.filterMap_append]
  rfl

@[simp] theorem table_report (seq : SeqNumber) (d : Diagnostic) (s : State) :
    (s.report seq d).table = s.table := rfl

@[simp] theorem table_require (token : Token) (seq : SeqNumber) (s : State) :
    (s.require token seq).2.table = s.table := by
  unfold require
  split <;> rfl

@[simp] theorem table_resolve (token : Token) (seq : SeqNumber) (s : State) :
    (s.resolve token seq).2.table = s.table := by
  unfold resolve
  split
  · exact table_require token seq s
  · rfl

@[simp] theorem table_compare (expected : ValueType) (actual : Operand) (seq : SeqNumber) (s : State) :
    (s.compare expected actual seq).table = s.table := by
  unfold compare
  split
  · rfl
  · split <;> rfl

end State

end PalChecker.Typing
