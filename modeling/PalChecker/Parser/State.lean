import PalChecker.Syntax.Nonterminal
import PalChecker.Syntax.Tree
import PalChecker.Token.Cursor

/-!
# The state of a parse

A parse moves a cursor, numbers what it recognises in the order of discovery, and keeps a journal of
what it did; its errors and its trace are read off the journal. After an error it is recovering until
the next token is consumed, and further errors are suppressed meanwhile, so that one missing token
causes one error.
-/

namespace PalChecker.Parser

inductive Action where
  | consumed (token : Token)
  /-- One token was dropped. -/
  | discarded (token : Token)
  /-- Tokens, perhaps none, were dropped on the way to a synchronizing token. -/
  | skipped (nonterminal : Nonterminal) (tokens : List Token) (start finish : Location)
  | reported (seq : SeqNumber) (nonterminal : Nonterminal) (found : Token)
  /-- An error was not reported, since an earlier one is being recovered from. -/
  | suppressed (nonterminal : Nonterminal) (location : Location)
  deriving DecidableEq, Repr

structure State where
  cursor : Cursor
  recovering : Bool
  /-- How many numbers were handed out. The counter, which is of 32 bits, shows `nextSeq` then. -/
  issued : Nat
  /-- Latest first. -/
  journal : List Action

namespace State

def ofTokens (tokens : List Token) : State := ⟨.ofTokens tokens, false, 0, []⟩

def current (s : State) : Token := s.cursor.current

def kind (s : State) : TokenKind := s.cursor.kind

def location (s : State) : Location := s.current.location

/-- The number of tokens left, which bounds every loop. -/
def remaining (s : State) : Nat := s.cursor.remaining

def note (a : Action) (s : State) : State := { s with journal := a :: s.journal }

/-- The next discovery number, as the counter shows it. -/
def nextSeq (s : State) : SeqNumber := .ofNat s.issued

/-- Hands out the next number. -/
def tick (s : State) : State := { s with issued := s.issued + 1 }

/-- The stamp of a node that is complete now and starts at `start`. -/
def stamp (start : Location) (s : State) : Stamp := ⟨start, s.nextSeq⟩

/-- Consumes the current token, which ends recovery. -/
def bump (s : State) : State :=
  { s.note (.consumed s.current) with cursor := s.cursor.advance, recovering := false }

/-- Drops the current token, which does not end recovery. -/
def discard (s : State) : State :=
  { s.note (.discarded s.current) with cursor := s.cursor.advance }

/-- Reports the current token as an error, unless an earlier error is being recovered from. -/
def fail (n : Nonterminal) (s : State) : State :=
  if s.recovering then s.note (.suppressed n s.location)
  else { s.tick.note (.reported s.nextSeq n s.current) with recovering := true }

/-- Drops tokens up to one of `extra`, of the synchronizing set of `n`, or the end of file. -/
def synchronize (n : Nonterminal) (extra : List TokenKind) (s : State) : State :=
  let stops := n.syncSet ++ extra
  let resumed := s.cursor.skipUntil stops
  { s.note (.skipped n (s.cursor.skipped stops) s.location resumed.current.location) with
    cursor := resumed }

/-- The counter is raised by one, and it wraps around. -/
theorem word_nextSeq_tick (s : State) : s.tick.nextSeq.word = s.nextSeq.word + 1 :=
  SeqNumber.word_ofNat_succ s.issued

/-! ## Tokens left -/

@[simp] theorem remaining_tick (s : State) : s.tick.remaining = s.remaining := rfl

@[simp] theorem remaining_bump (s : State) : s.bump.remaining = s.remaining - 1 :=
  s.cursor.remaining_advance

theorem remaining_bump_le (s : State) : s.bump.remaining ≤ s.remaining := by
  rw [remaining_bump]
  exact Nat.sub_le _ _

@[simp] theorem remaining_discard (s : State) : s.discard.remaining = s.remaining - 1 :=
  s.cursor.remaining_advance

@[simp] theorem remaining_fail (n : Nonterminal) (s : State) :
    (s.fail n).remaining = s.remaining := by
  unfold fail
  split <;> rfl

theorem remaining_synchronize_le (n : Nonterminal) (extra : List TokenKind) (s : State) :
    (s.synchronize n extra).remaining ≤ s.remaining := by
  have := s.cursor.remaining_skipUntil (n.syncSet ++ extra)
  simp only [remaining, synchronize]
  omega

theorem remaining_recover_le (n : Nonterminal) (extra : List TokenKind) (s : State) :
    ((s.fail n).synchronize n extra).remaining ≤ s.remaining := by
  have := (s.fail n).remaining_synchronize_le n extra
  rwa [remaining_fail] at this

theorem remaining_pos {s : State} (h : s.kind ≠ .endOfFile) : 0 < s.remaining :=
  Cursor.remaining_pos h

theorem remaining_bump_lt {s : State} (h : s.kind ≠ .endOfFile) : s.bump.remaining < s.remaining := by
  have := remaining_pos h
  simp only [remaining_bump]
  omega

end State

/-! ## Results -/

/-- What was read from `s`: a value and the state afterwards, in which no more tokens are left. -/
structure Parsed (α : Type) (s : State) where
  value : α
  state : State
  le : state.remaining ≤ s.remaining

namespace Parsed

/-- The same result, seen from a state further back. -/
def since {α : Type} {s t : State} (p : Parsed α t) (h : t.remaining ≤ s.remaining) : Parsed α s :=
  ⟨p.value, p.state, Nat.le_trans p.le h⟩

end Parsed

/-! ## Consuming or recovering -/

namespace State

/-- Consumes the current token, if it is one of `kinds`. -/
def eatAny (kinds : List TokenKind) (s : State) : Parsed (Option Token) s :=
  if s.kind ∈ kinds then ⟨some s.current, s.bump, s.remaining_bump_le⟩ else ⟨none, s, Nat.le_refl _⟩

/-- Consumes a token of one of `kinds`. If the current one is not, that is an error of `n`: tokens are
dropped up to where `n` resumes, and a token of `kinds` found there is consumed after all. -/
def expectAny (kinds : List TokenKind) (n : Nonterminal) (s : State) : Parsed (Option Token) s :=
  if s.kind ∈ kinds then ⟨some s.current, s.bump, s.remaining_bump_le⟩
  else
    ((s.fail n).synchronize n kinds).eatAny kinds |>.since (s.remaining_recover_le n kinds)

def expect (kind : TokenKind) (n : Nonterminal) (s : State) : Parsed (Option Token) s :=
  s.expectAny [kind] n

end State

end PalChecker.Parser
