import PalChecker.Diagnostic
import PalChecker.Parser.Statement

/-! # Reading programs -/

namespace PalChecker.Parser

/-! ## Declarations -/

/-- Drops a name that stands in the place of a type. -/
def State.dropName (s : State) : State := if s.kind = .identifier then s.discard else s

theorem remaining_dropName_le (s : State) : s.dropName.remaining ≤ s.remaining := by
  unfold State.dropName
  split
  · rw [State.remaining_discard]
    exact Nat.sub_le _ _
  · exact Nat.le_refl _

/-- The type of a group. A name in its place is taken as a misspelt type. -/
def declType (s : State) : Parsed (Option DeclType) s :=
  if s.kind = .keyword .real then ⟨some .real, s.bump, s.remaining_bump_le⟩
  else if s.kind = .keyword .integer then ⟨some .integer, s.bump, s.remaining_bump_le⟩
  else
    let rest := (s.fail .type).dropName
    have le : rest.remaining ≤ s.remaining := s.remaining_fail .type ▸ remaining_dropName_le (s.fail .type)
    ⟨none, rest.synchronize .type [], Nat.le_trans (rest.remaining_synchronize_le .type []) le⟩

def declaration (s : State) : Parsed Declaration s :=
  let names := identifiers s
  let link := names.state.expect (.keyword .as) .varDecls
  let type := declType link.state
  ⟨{ stamp := type.state.stamp s.location, idents := names.value, type := type.value },
    type.state.tick, Nat.le_trans type.le (Nat.le_trans link.le names.le)⟩

/-- A group that begins with a name uses it up. -/
theorem remaining_declaration_lt {s : State} (h : s.kind = .identifier) :
    (declaration s).state.remaining < s.remaining := by
  have hfirst : (identifier s).state.remaining = s.bump.remaining := by
    simp [identifier, State.expect, State.expectAny, h]
  have hnames : (identifiers s).state.remaining ≤ (identifier s).state.remaining :=
    (moreIdentifiers (identifier s).state).le
  have hlt : s.bump.remaining < s.remaining := State.remaining_bump_lt (by simp [h])
  have hrest : (declaration s).state.remaining ≤ (identifiers s).state.remaining :=
    Nat.le_trans (declType _).le ((identifiers s).state.expect (.keyword .as) .varDecls).le
  omega

/-- At the name of another group. A name before an equals sign is the target of an assignment. -/
def AtDeclaration (s : State) : Prop :=
  s.kind = .identifier ∧ s.cursor.next.kind ≠ .punct .equals

instance (s : State) : Decidable (AtDeclaration s) := inferInstanceAs (Decidable (_ ∧ _))

def moreDeclarations (s : State) : Parsed (List Declaration) s :=
  if h : AtDeclaration s then
    let first := declaration s
    have := remaining_declaration_lt h.1
    let rest := moreDeclarations first.state
    ⟨first.value :: rest.value, rest.state, Nat.le_trans rest.le first.le⟩
  else ⟨[], s, Nat.le_refl _⟩
termination_by s.remaining

def declarations (s : State) : Parsed (List Declaration) s :=
  let first := declaration s
  let rest := moreDeclarations first.state
  ⟨first.value :: rest.value, rest.state, Nat.le_trans rest.le first.le⟩

/-! ## Programs -/

def Action.finding? : Action → Option Finding
  | reported seq n found => some ⟨seq, .syntaxError n found⟩
  | consumed _ | discarded _ | skipped .. | suppressed .. => none

structure Outcome where
  program : Program
  final : State

/-- Reads a whole stream. The section of statements must not be empty, and after the program nothing
may follow. -/
def parse (tokens : List Token) : Outcome :=
  let start := State.ofTokens tokens
  let header := start.expect (.keyword .program) .program
  let name := header.state.expect .identifier .program
  let opening := name.state.expect (.keyword .withDecls) .program
  let groups := declarations opening.state
  let middle := groups.state.expect (.keyword .inBody) .program
  let body := statements [.keyword .endProgram] middle.state
  let filled := if body.value.isEmpty then body.state.fail .statement else body.state
  let close := filled.expect (.keyword .endProgram) .program
  { program :=
      { name := name.value
        declarations := groups.value
        statements := body.value
        location := start.location }
    final := if close.state.kind = .endOfFile then close.state else close.state.fail .program }

namespace Outcome

/-- The largest number was handed out. A build that checks its arithmetic stops there, and in any other the
numbers start again at zero. -/
def Overflows (o : Outcome) : Prop := UInt32.size ≤ o.final.issued

instance (o : Outcome) : Decidable o.Overflows := inferInstanceAs (Decidable (_ ≤ _))

/-- What the parse did, in order. -/
def actions (o : Outcome) : List Action := o.final.journal.reverse

def errors (o : Outcome) : List Finding := o.actions.filterMap Action.finding?

end Outcome

end PalChecker.Parser
