import PalChecker.Token

/-!
# A place in a token stream

A stream is never empty and ends with an end-of-file token. A cursor splits it into the tokens passed,
the tokens ahead and the closing token; it moves forward only, and never past the closing token. An
end-of-file kind may also occur earlier, and skipping stops there too.
-/

namespace PalChecker

structure Cursor where
  /-- The tokens already passed, latest first. -/
  passed : List Token
  ahead : List Token
  closing : Token
  closing_kind : closing.kind = .endOfFile

namespace Cursor

/-- The end of file that closes tokens which lack one. It stands where the last of them does. -/
def closingFor (tokens : List Token) : Token :=
  .endOfFile (tokens.getLast?.elim .start Token.location)

/-- At the first of `tokens`, closed by an end of file unless they already are. -/
def ofTokens (tokens : List Token) : Cursor :=
  match tokens.getLast? with
  | some last =>
    if h : last.kind = .endOfFile then ⟨[], tokens.dropLast, last, h⟩
    else ⟨[], tokens, closingFor tokens, rfl⟩
  | none => ⟨[], tokens, closingFor tokens, rfl⟩

/-- The whole stream, wherever the cursor stands in it. -/
def stream (c : Cursor) : List Token := c.passed.reverse ++ c.ahead ++ [c.closing]

/-- How many tokens lie behind. -/
def position (c : Cursor) : Nat := c.passed.length

/-- How many tokens can still be passed. -/
def remaining (c : Cursor) : Nat := c.ahead.length

def current (c : Cursor) : Token := c.ahead.headD c.closing

/-- The token after the current one; at the end the closing token again. -/
def next (c : Cursor) : Token := c.ahead.tail.headD c.closing

def kind (c : Cursor) : TokenKind := c.current.kind

/-- Passes the current token. At the closing token the cursor stays. -/
def advance (c : Cursor) : Cursor :=
  match c.ahead with
  | [] => c
  | t :: rest => { c with passed := t :: c.passed, ahead := rest }

/-- Where skipping ends: at a kind to stop on, or at an end of file. -/
def Halts (stops : List TokenKind) (t : Token) : Prop := t.kind = .endOfFile ∨ t.kind ∈ stops

instance (stops : List TokenKind) (t : Token) : Decidable (Halts stops t) :=
  inferInstanceAs (Decidable (_ ∨ _))

/-- The tokens before the first one that halts. -/
def skipped (stops : List TokenKind) (c : Cursor) : List Token :=
  c.ahead.takeWhile fun t => ¬ Halts stops t

/-- Moves to the first token that halts. -/
def skipUntil (stops : List TokenKind) (c : Cursor) : Cursor :=
  { c with
    passed := (c.skipped stops).reverse ++ c.passed
    ahead := c.ahead.dropWhile fun t => ¬ Halts stops t }

/-! ## What each move does -/

@[simp] theorem stream_advance (c : Cursor) : c.advance.stream = c.stream := by
  unfold advance
  split
  · rfl
  · simp [stream, *]

@[simp] theorem stream_skipUntil (stops : List TokenKind) (c : Cursor) :
    (c.skipUntil stops).stream = c.stream := by
  simp [stream, skipUntil, skipped]

theorem remaining_advance (c : Cursor) : c.advance.remaining = c.remaining - 1 := by
  unfold advance remaining
  split <;> simp [*]

theorem position_advance (c : Cursor) :
    c.advance.position = if c.remaining = 0 then c.position else c.position + 1 := by
  unfold advance remaining position
  split <;> simp [*]

theorem remaining_skipUntil (stops : List TokenKind) (c : Cursor) :
    (c.skipped stops).length + (c.skipUntil stops).remaining = c.remaining := by
  simp only [skipped, skipUntil, remaining, ← List.length_append, List.takeWhile_append_dropWhile]

theorem position_skipUntil (stops : List TokenKind) (c : Cursor) :
    (c.skipUntil stops).position = c.position + (c.skipped stops).length := by
  simp [skipUntil, position, Nat.add_comm]

theorem kind_of_remaining_eq_zero {c : Cursor} (h : c.remaining = 0) : c.kind = .endOfFile := by
  have : c.ahead = [] := List.length_eq_zero_iff.mp h
  simp [kind, current, this, c.closing_kind]

/-- Away from the end of file a token is left to pass. -/
theorem remaining_pos {c : Cursor} (h : c.kind ≠ .endOfFile) : 0 < c.remaining :=
  Nat.pos_of_ne_zero fun h₀ => h (kind_of_remaining_eq_zero h₀)

/-- Skipping ends on a token that halts. -/
theorem halts_skipUntil (stops : List TokenKind) (c : Cursor) :
    Halts stops (c.skipUntil stops).current := by
  simp only [current, skipUntil]
  cases h : c.ahead.dropWhile fun t => ¬ Halts stops t with
  | nil => exact Or.inl c.closing_kind
  | cons t rest =>
    have := List.head?_dropWhile_not (fun t => decide ¬ Halts stops t) c.ahead
    rw [h] at this
    simpa using this

end Cursor

end PalChecker
