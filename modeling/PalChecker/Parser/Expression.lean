import PalChecker.Parser.State

/-!
# Reading expressions

Sums of products of signed operands, both tiers associating to the left. A function that reads what
follows a consumed token is given the token. Each function calls others only with fewer tokens left, or
with as many and a lower rank, so reading ends on every stream.
-/

namespace PalChecker.Parser

/-! ## Kinds that are not the end of file -/

theorem ne_endOfFile_of_additive {k : TokenKind} {op : BinaryOp}
    (h : BinaryOp.additive? k = some op) : k ≠ .endOfFile := by
  rintro rfl
  cases h

theorem ne_endOfFile_of_multiplicative {k : TokenKind} {op : BinaryOp}
    (h : BinaryOp.multiplicative? k = some op) : k ≠ .endOfFile := by
  rintro rfl
  cases h

theorem ne_endOfFile_of_sign {k : TokenKind} {sign : Sign} (h : Sign.ofKind? k = some sign) :
    k ≠ .endOfFile := by
  rintro rfl
  cases h

theorem ne_endOfFile_of_operandStart {k : TokenKind} (h : k ∈ TokenKind.operandStart) :
    k ≠ .endOfFile := by
  rintro rfl
  exact absurd h (by decide)

/-! ## Ranks -/

theorem rank_lt {a b i j : Nat} (h : a ≤ b) (hij : i < j) : 8 * a + i < 8 * b + j := by omega

theorem rank_lt_of_lt {a b i j : Nat} (h : a < b) (hi : i < 8) : 8 * a + i < 8 * b + j := by omega

/-! ## Expressions -/

mutual

def expression (s : State) : Parsed Expr s :=
  let first := term s
  (sums first.value first.state).since first.le
termination_by 8 * s.remaining + 6
decreasing_by
  · exact rank_lt (Nat.le_refl _) (by decide)
  · exact rank_lt first.le (by decide)

/-- Extends `left` by the terms that are added to it or subtracted from it. -/
def sums (left : Expr) (s : State) : Parsed Expr s :=
  match h : BinaryOp.additive? s.kind with
  | none => ⟨left, s, Nat.le_refl _⟩
  | some op =>
    have lt := State.remaining_bump_lt (ne_endOfFile_of_additive h)
    let right := term s.bump
    have le := Nat.lt_of_le_of_lt right.le lt
    let node := Expr.binary (right.state.stamp s.location) left op right.value
    (sums node right.state.tick).since (Nat.le_of_lt le)
termination_by 8 * s.remaining + 1
decreasing_by
  · exact rank_lt_of_lt lt (by decide)
  · exact rank_lt_of_lt le (by decide)

def term (s : State) : Parsed Expr s :=
  let first := factor s
  (products first.value first.state).since first.le
termination_by 8 * s.remaining + 5
decreasing_by
  · exact rank_lt (Nat.le_refl _) (by decide)
  · exact rank_lt first.le (by decide)

/-- Extends `left` by the factors that it is multiplied or divided by. -/
def products (left : Expr) (s : State) : Parsed Expr s :=
  match h : BinaryOp.multiplicative? s.kind with
  | none => ⟨left, s, Nat.le_refl _⟩
  | some op =>
    have lt := State.remaining_bump_lt (ne_endOfFile_of_multiplicative h)
    let right := factor s.bump
    have le := Nat.lt_of_le_of_lt right.le lt
    let node := Expr.binary (right.state.stamp s.location) left op right.value
    (products node right.state.tick).since (Nat.le_of_lt le)
termination_by 8 * s.remaining + 0
decreasing_by
  · exact rank_lt_of_lt lt (by decide)
  · exact rank_lt_of_lt le (by decide)

def factor (s : State) : Parsed Expr s :=
  match h : Sign.ofKind? s.kind with
  | some sign =>
    have lt := State.remaining_bump_lt (ne_endOfFile_of_sign h)
    (signed sign s.location s.bump).since (Nat.le_of_lt lt)
  | none => primary s
termination_by 8 * s.remaining + 4
decreasing_by
  · exact rank_lt_of_lt lt (by decide)
  · exact rank_lt (Nat.le_refl _) (by decide)

/-- What follows a sign that stands at `start`. -/
def signed (sign : Sign) (start : Location) (s : State) : Parsed Expr s :=
  let operand := primary s
  ⟨.unary (operand.state.stamp start) sign operand.value, operand.state.tick, operand.le⟩
termination_by 8 * s.remaining + 4
decreasing_by exact rank_lt (Nat.le_refl _) (by decide)

/-- An operand without a sign. If there is none, tokens are dropped, and a factor found then is taken as
the operand that was meant. -/
def primary (s : State) : Parsed Expr s :=
  if h : s.kind ∈ TokenKind.operandStart then
    have lt := State.remaining_bump_lt (ne_endOfFile_of_operandStart h)
    (operand s.current s.bump).since (Nat.le_of_lt lt)
  else
    let resumed := (s.fail .factor).synchronize .factor []
    have le : resumed.remaining ≤ s.remaining := s.remaining_recover_le .factor []
    match h : Sign.ofKind? resumed.kind with
    | some sign =>
      have lt := Nat.lt_of_lt_of_le (State.remaining_bump_lt (ne_endOfFile_of_sign h)) le
      (signed sign resumed.location resumed.bump).since (Nat.le_of_lt lt)
    | none =>
      if h : resumed.kind ∈ TokenKind.operandStart then
        have lt := Nat.lt_of_lt_of_le (State.remaining_bump_lt (ne_endOfFile_of_operandStart h)) le
        (operand resumed.current resumed.bump).since (Nat.le_of_lt lt)
      else ⟨.error (resumed.stamp s.location), resumed.tick, le⟩
termination_by 8 * s.remaining + 3
decreasing_by all_goals exact rank_lt_of_lt lt (by decide)

/-- The operand that `head` begins: itself, or what it opens as a parenthesis. -/
def operand (head : Token) (s : State) : Parsed Expr s :=
  if head.kind = .punct .lparen then
    let inner := expression s
    let close := inner.state.expect (.punct .rparen) .factor
    ⟨.group (close.state.stamp head.location) inner.value, close.state.tick,
      Nat.le_trans close.le inner.le⟩
  else ⟨.value (s.stamp head.location) head, s.tick, Nat.le_refl _⟩
termination_by 8 * s.remaining + 7
decreasing_by exact rank_lt (Nat.le_refl _) (by decide)

end

/-! ## Comparisons -/

def condition (s : State) : Parsed Condition s :=
  let left := expression s
  let op := left.state.expectAny TokenKind.relationalOperator .booleanExpr
  let right := expression op.state
  ⟨{ stamp := right.state.stamp s.location
     left := left.value
     op := op.value.bind fun t => RelationalOp.ofKind? t.kind
     right := right.value },
    right.state.tick, Nat.le_trans right.le (Nat.le_trans op.le left.le)⟩

end PalChecker.Parser
