import PalChecker.Parser.Expression

/-!
# Reading statements

A statement is chosen by its first token. A token that begins none is one error, and reading resumes at
the next statement or block end.
-/

namespace PalChecker.Parser

/-! ## Names -/

def identifier (s : State) : Parsed (Option Ident) s :=
  let name := s.expect .identifier .identList
  match name.value with
  | some token =>
    ⟨some ⟨name.state.stamp token.location, token⟩, name.state.tick, name.le⟩
  | none => ⟨none, name.state, name.le⟩

/-- The names that commas add to a list. -/
def moreIdentifiers (s : State) : Parsed (List Ident) s :=
  if h : s.kind = .punct .comma then
    have lt := State.remaining_bump_lt (s := s) (by simp [h])
    let first := identifier s.bump
    have le := Nat.lt_of_le_of_lt first.le lt
    let rest := moreIdentifiers first.state
    ⟨first.value.toList ++ rest.value, rest.state, Nat.le_trans rest.le (Nat.le_of_lt le)⟩
  else ⟨[], s, Nat.le_refl _⟩
termination_by s.remaining

def identifiers (s : State) : Parsed (List Ident) s :=
  let first := identifier s
  let rest := moreIdentifiers first.state
  ⟨first.value.toList ++ rest.value, rest.state, Nat.le_trans rest.le first.le⟩

/-! ## Statements without a body -/

/-- The assignment to `target`. Without an equals sign it has no value, and what follows belongs to the
next statement. -/
def assignment (target : Token) (s : State) : Parsed Statement s :=
  let ident : Ident := ⟨s.stamp target.location, target⟩
  let equals := s.tick.expect (.punct .equals) .assignment
  have le : equals.state.remaining ≤ s.remaining := equals.le
  if equals.value.isSome then
    let value := expression equals.state
    ⟨.assignment (value.state.stamp target.location) ident value.value, value.state.tick,
      Nat.le_trans value.le le⟩
  else
    let value := Expr.error (equals.state.stamp target.location)
    let state := equals.state.tick
    ⟨.assignment (state.stamp target.location) ident value, state.tick, le⟩

def input (start : Location) (s : State) : Parsed Statement s :=
  let targets := identifiers s
  ⟨.input (targets.state.stamp start) targets.value, targets.state.tick, targets.le⟩

/-- The values that commas add to an output. -/
def moreValues (s : State) : Parsed (List Expr) s :=
  if h : s.kind = .punct .comma then
    have lt := State.remaining_bump_lt (s := s) (by simp [h])
    let first := expression s.bump
    have le := Nat.lt_of_le_of_lt first.le lt
    let rest := moreValues first.state
    ⟨first.value :: rest.value, rest.state, Nat.le_trans rest.le (Nat.le_of_lt le)⟩
  else ⟨[], s, Nat.le_refl _⟩
termination_by s.remaining

def output (start : Location) (s : State) : Parsed Statement s :=
  let first := expression s
  let rest := moreValues first.state
  ⟨.output (rest.state.stamp start) (first.value :: rest.value), rest.state.tick,
    Nat.le_trans rest.le first.le⟩

/-! ## Blocks -/

theorem ne_endOfFile_of_statementStart {k : TokenKind} (h : k ∈ TokenKind.statementStart) :
    k ≠ .endOfFile := by
  rintro rfl
  exact absurd h (by decide)

mutual

/-- The statements before a token of `stops` or the end of file. -/
def statements (stops : List TokenKind) (s : State) : Parsed (List Statement) s :=
  if h : s.kind = .endOfFile ∨ s.kind ∈ stops then ⟨[], s, Nat.le_refl _⟩
  else
    have lt := State.remaining_bump_lt (not_or.mp h).1
    if s.kind ∈ TokenKind.statementStart then
      let first := statement s.current s.bump
      have le := Nat.lt_of_le_of_lt first.le lt
      let rest := statements stops first.state
      ⟨first.value :: rest.value, rest.state, Nat.le_trans rest.le (Nat.le_of_lt le)⟩
    else
      -- The token may be one to synchronize on, so it is dropped first.
      let dropped := (s.fail .statement).discard
      let resumed := dropped.synchronize .statement []
      have le : resumed.remaining < s.remaining :=
        Nat.lt_of_le_of_lt (dropped.remaining_synchronize_le .statement []) (by
          have := State.remaining_pos (not_or.mp h).1
          simp only [dropped, State.remaining_discard, State.remaining_fail]
          omega)
      (statements stops resumed).since (Nat.le_of_lt le)
termination_by 8 * s.remaining + 0
decreasing_by
  · exact rank_lt_of_lt lt (by decide)
  · exact rank_lt_of_lt le (by decide)
  · exact rank_lt_of_lt le (by decide)

/-- The statement that `head` begins. -/
def statement (head : Token) (s : State) : Parsed Statement s :=
  match head.kind with
  | .identifier => assignment head s
  | .keyword .untilCond => loop head.location s
  | .keyword .ifCond => conditional head.location s
  | .keyword .input => input head.location s
  | _ => output head.location s
termination_by 8 * s.remaining + 2
decreasing_by all_goals exact rank_lt (Nat.le_refl _) (by decide)

def loop (start : Location) (s : State) : Parsed Statement s :=
  let test := condition s
  let opening := test.state.expect (.keyword .repeatBody) .loop
  have le := Nat.le_trans opening.le test.le
  let body := statements TokenKind.blockEnd opening.state
  let close := body.state.expect (.keyword .endLoop) .loop
  ⟨.loop (close.state.stamp start) test.value body.value, close.state.tick,
    Nat.le_trans close.le (Nat.le_trans body.le le)⟩
termination_by 8 * s.remaining + 1
decreasing_by exact rank_lt le (by decide)

def conditional (start : Location) (s : State) : Parsed Statement s :=
  let test := condition s
  let opening := test.state.expect (.keyword .thenBranch) .conditional
  have le := Nat.le_trans opening.le test.le
  let whenTrue := statements TokenKind.blockEnd opening.state
  have le := Nat.le_trans whenTrue.le le
  let middle := whenTrue.state.eatAny [.keyword .elseBranch]
  have le := Nat.le_trans middle.le le
  let otherwise : Parsed (Option (List Statement)) s :=
    if middle.value.isSome then
      let block := statements TokenKind.blockEnd middle.state
      ⟨some block.value, block.state, Nat.le_trans block.le le⟩
    else ⟨none, middle.state, le⟩
  let close := otherwise.state.expect (.keyword .endIf) .conditional
  ⟨.conditional (close.state.stamp start) test.value whenTrue.value otherwise.value, close.state.tick,
    Nat.le_trans close.le otherwise.le⟩
termination_by 8 * s.remaining + 1
decreasing_by all_goals exact rank_lt (by assumption) (by decide)

end

end PalChecker.Parser
