import Mathlib.Logic.Function.Iterate
import PalChecker.Proofs.Token.Stream

/-!
# A cursor as a position in its stream

A cursor can be told by the position of its current token. Whatever is done with it the stream stays, and the
position is one of the stream, so each token that is looked up by a position is there.
-/

namespace PalChecker

/-- The tokens, closed by an end of file unless they already are. -/
def Token.closed (tokens : List Token) : List Token :=
  if tokens.getLast?.any (·.kind = .endOfFile) then tokens else tokens ++ [Cursor.closingFor tokens]

namespace Cursor

/-! ## Looking tokens up -/

theorem stream_eq_closed (tokens : List Token) : (ofTokens tokens).stream = Token.closed tokens := by
  unfold Token.closed
  rcases List.eq_nil_or_concat tokens with rfl | ⟨before, last, rfl⟩
  · rfl
  · rw [List.concat_eq_append, List.getLast?_concat]
    by_cases h : last.kind = .endOfFile
    · rw [ofTokens_concat_of_endOfFile before h]
      simp [stream, h]
    · rw [ofTokens_concat_of_ne before h]
      simp [stream, closingFor, h]

variable (c : Cursor)

theorem drop_stream : c.stream.drop c.position = c.ahead ++ [c.closing] := by
  rw [stream, List.append_assoc]
  exact List.drop_left' (List.length_reverse ..)

theorem length_stream : c.stream.length = c.position + c.remaining + 1 := by
  simp only [stream, position, remaining, List.length_append, List.length_reverse, List.length_singleton]

theorem position_lt_length : c.position < c.stream.length := by
  have := c.length_stream
  omega

theorem getElem?_stream (i : Nat) : c.stream[c.position + i]? = (c.ahead ++ [c.closing])[i]? := by
  rw [← drop_stream, List.getElem?_drop]

theorem getElem?_position : c.stream[c.position]? = some c.current := by
  rw [← Nat.add_zero c.position, getElem?_stream, current]
  cases c.ahead <;> rfl

theorem getElem?_next : c.stream[min (c.position + 1) (c.stream.length - 1)]? = some c.next := by
  have hlength := c.length_stream
  -- The last position is that of the closing token.
  have hplace : min (c.position + 1) (c.stream.length - 1) = c.position + min 1 c.remaining := by omega
  rw [hplace, getElem?_stream, next, remaining]
  cases c.ahead with
  | nil => rfl
  | cons t rest =>
    rw [List.length_cons, Nat.min_eq_left (Nat.le_add_left _ _)]
    cases rest <;> rfl

theorem position_advance_of_lt (h : c.position + 1 < c.stream.length) :
    c.advance.position = c.position + 1 := by
  have hlength := c.length_stream
  rw [position_advance, if_neg (by omega)]

theorem advance_at_last (h : c.position + 1 = c.stream.length) :
    c.advance = c ∧ c.current.kind = .endOfFile := by
  have hlength := c.length_stream
  have hnone : c.remaining = 0 := by omega
  refine ⟨?_, kind_of_remaining_eq_zero hnone⟩
  unfold advance
  rw [List.eq_nil_of_length_eq_zero hnone]

/-! ## Skipping -/

/-- Of the tokens from the cursor on, `x` is the first one with `P`, and it stands at `q`. -/
structure FirstAt (P : Token → Prop) (q : Nat) (x : Token) : Prop where
  le : c.position ≤ q
  found : c.stream[q]? = some x
  holds : P x
  before : ∀ i t, c.position ≤ i → i < q → c.stream[i]? = some t → ¬P t

theorem FirstAt.unique {c : Cursor} {P : Token → Prop} {q q' : Nat} {x x' : Token} (h : c.FirstAt P q x)
    (h' : c.FirstAt P q' x') : q = q' ∧ x = x' := by
  have hq : q = q' := by
    rcases Nat.lt_trichotomy q q' with hlt | heq | hlt
    · exact absurd h.holds (h'.before q x h.le hlt h.found)
    · exact heq
    · exact absurd h'.holds (h.before q' x' h'.le hlt h'.found)
  subst hq
  exact ⟨rfl, Option.some.inj (h.found.symm.trans h'.found)⟩

theorem not_halts_of_mem_skipped {stops : List TokenKind} {t : Token} (h : t ∈ c.skipped stops) :
    ¬Halts stops t := of_decide_eq_true (List.all_eq_true.mp List.all_takeWhile t h)

theorem firstAt_skipUntil (stops : List TokenKind) :
    c.FirstAt (Halts stops) (c.position + (c.skipped stops).length) (c.skipUntil stops).current where
  le := Nat.le_add_right _ _
  found := by
    have hfound := (c.skipUntil stops).getElem?_position
    rwa [stream_skipUntil, position_skipUntil] at hfound
  holds := halts_skipUntil stops c
  before i t hle hlt ht := by
    obtain ⟨j, rfl⟩ := Nat.exists_eq_add_of_le hle
    have hj : j < (c.skipped stops).length := Nat.lt_of_add_lt_add_left hlt
    -- What is skipped is the front of what lies ahead.
    have hahead : c.ahead = c.skipped stops ++ (c.skipUntil stops).ahead :=
      List.takeWhile_append_dropWhile.symm
    rw [getElem?_stream, hahead, List.append_assoc, List.getElem?_append_left hj] at ht
    exact c.not_halts_of_mem_skipped (List.mem_of_getElem? ht)

theorem advance_iterate (front rest : List Token) (h : c.ahead = front ++ rest) :
    advance^[front.length] c = { c with passed := front.reverse ++ c.passed, ahead := rest } := by
  induction front generalizing c with
  | nil =>
    cases h
    rfl
  | cons t front ih =>
    have hadvance : c.advance = { c with passed := t :: c.passed, ahead := front ++ rest } := by
      unfold advance
      rw [h, List.cons_append]
    rw [List.length_cons, Function.iterate_succ_apply, hadvance, ih _ rfl]
    simp

theorem skipUntil_eq_iterate (stops : List TokenKind) :
    c.skipUntil stops = advance^[(c.skipped stops).length] c :=
  (c.advance_iterate _ _ List.takeWhile_append_dropWhile.symm).symm

/-! ## Operations -/

inductive Operation where
  | peek
  | peekNext
  | isAt (kind : TokenKind)
  | isAtAny (kinds : List TokenKind)
  | isAtEnd
  | location
  | position
  | advance
  | skipUntil (stops : List TokenKind)
  deriving DecidableEq, Repr

inductive Answer where
  | token (t : Token)
  | truth (b : Bool)
  | location (l : Location)
  | count (n : Nat)
  deriving DecidableEq, Repr

/-- Advancing gives the token that is passed, and skipping the number of those. -/
def answer : Operation → Answer
  | .peek | .advance => .token c.current
  | .peekNext => .token c.next
  | .isAt kind => .truth (c.kind = kind)
  | .isAtAny kinds => .truth (c.kind ∈ kinds)
  | .isAtEnd => .truth (c.kind = .endOfFile)
  | .location => .location c.current.location
  | .position => .count c.position
  | .skipUntil stops => .count (c.skipped stops).length

def perform : Operation → Cursor
  | .advance => c.advance
  | .skipUntil stops => c.skipUntil stops
  | .peek | .peekNext | .isAt _ | .isAtAny _ | .isAtEnd | .location | .position => c

def performAll (ops : List Operation) (c : Cursor) : Cursor := ops.foldl perform c

/-- What each operation answers, with the position behind it. -/
def record : Cursor → List Operation → List (Answer × Nat)
  | _, [] => []
  | c, op :: rest => (c.answer op, (c.perform op).position) :: record (c.perform op) rest

theorem stream_perform (op : Operation) : (c.perform op).stream = c.stream := by
  cases op with
  | advance => exact c.stream_advance
  | skipUntil stops => exact c.stream_skipUntil stops
  | peek | peekNext | isAt | isAtAny | isAtEnd | location | position => rfl

theorem position_le_perform (op : Operation) : c.position ≤ (c.perform op).position := by
  cases op with
  | advance =>
    rw [perform, position_advance]
    split <;> omega
  | skipUntil stops =>
    rw [perform, position_skipUntil]
    exact Nat.le_add_right _ _
  | peek | peekNext | isAt | isAtAny | isAtEnd | location | position => exact Nat.le_refl _

theorem stream_performAll (ops : List Operation) : (c.performAll ops).stream = c.stream := by
  induction ops generalizing c with
  | nil => rfl
  | cons op ops ih => exact (ih (c.perform op)).trans (c.stream_perform op)

theorem position_le_performAll (ops : List Operation) : c.position ≤ (c.performAll ops).position := by
  induction ops generalizing c with
  | nil => exact Nat.le_refl _
  | cons op ops ih => exact Nat.le_trans (c.position_le_perform op) (ih (c.perform op))

/-! ## Operations by positions alone -/

namespace Operation

/-- The answer of an operation on a stream at position `p`, and the position behind it. There is none if a
position out of range is looked up or skipping finds no end. -/
def atPosition? (stream : List Token) (p : Nat) : Operation → Option (Answer × Nat)
  | peek => stream[p]?.map fun t => (.token t, p)
  | peekNext => stream[min (p + 1) (stream.length - 1)]?.map fun t => (.token t, p)
  | isAt kind => stream[p]?.map fun t => (.truth (t.kind = kind), p)
  | isAtAny kinds => stream[p]?.map fun t => (.truth (t.kind ∈ kinds), p)
  | isAtEnd => stream[p]?.map fun t => (.truth (t.kind = .endOfFile), p)
  | location => stream[p]?.map fun t => (.location t.location, p)
  | position => some (.count p, p)
  | advance => stream[p]?.map fun t => (.token t, if p + 1 < stream.length then p + 1 else p)
  | skipUntil stops =>
    ((stream.drop p).findIdx? fun t => Halts stops t).map fun n => (.count n, p + n)

def replay? (stream : List Token) : Nat → List Operation → Option (List (Answer × Nat))
  | _, [] => some []
  | p, op :: rest =>
    (op.atPosition? stream p).bind fun step => (replay? stream step.2 rest).map (step :: ·)

end Operation

theorem findIdx?_halts (stops : List TokenKind) :
    ((c.stream.drop c.position).findIdx? fun t => Halts stops t) = some (c.skipped stops).length := by
  have hfirst := c.firstAt_skipUntil stops
  obtain ⟨hlt, hfound⟩ := List.getElem?_eq_some_iff.mp hfirst.found
  rw [List.findIdx?_eq_some_iff_getElem]
  refine ⟨by rw [List.length_drop]; omega, ?_, fun i hi => ?_⟩
  · rw [List.getElem_drop, hfound]
    exact decide_eq_true hfirst.holds
  · rw [List.getElem_drop, decide_eq_true_iff]
    exact hfirst.before (c.position + i) _ (Nat.le_add_right _ _) (Nat.add_lt_add_left hi _)
      (List.getElem?_eq_getElem _)

/-- Wherever a cursor is, what an operation looks up is there. -/
theorem atPosition?_eq (op : Operation) :
    op.atPosition? c.stream c.position = some (c.answer op, (c.perform op).position) := by
  have hcurrent := c.getElem?_position
  cases op with
  | peekNext =>
    rw [Operation.atPosition?, c.getElem?_next]
    rfl
  | position => rfl
  | advance =>
    rw [Operation.atPosition?, hcurrent, perform, position_advance]
    have hlength := c.length_stream
    by_cases hlast : c.remaining = 0
    · rw [if_pos hlast, if_neg (by omega)]
      rfl
    · rw [if_neg hlast, if_pos (by omega)]
      rfl
  | skipUntil stops =>
    rw [Operation.atPosition?, c.findIdx?_halts, perform, position_skipUntil]
    rfl
  | peek | isAt | isAtAny | isAtEnd | location =>
    rw [Operation.atPosition?, hcurrent]
    rfl

theorem replay?_eq (ops : List Operation) :
    Operation.replay? c.stream c.position ops = some (c.record ops) := by
  induction ops generalizing c with
  | nil => rfl
  | cons op ops ih =>
    -- The stream is the same behind `op`, so the rest is read on it too.
    have hrest := ih (c.perform op)
    rw [stream_perform] at hrest
    rw [Operation.replay?, atPosition?_eq, Option.bind_some, hrest]
    rfl

/-- The cursor is inside of `stream`, and so are all operations from there on. -/
structure StaysIn (stream : List Token) : Prop where
  stream_eq : c.stream = stream
  position_lt : c.position < stream.length
  position_le : ∀ ops, c.position ≤ (c.performAll ops).position
  /-- No position that is looked up is out of range. -/
  answers : ∀ op : Operation,
    op.atPosition? stream c.position = some (c.answer op, (c.perform op).position)
  advances : c.position + 1 < stream.length → c.advance.position = c.position + 1
  stays_at_last : c.position + 1 = stream.length →
    c.advance = c ∧ ∃ t, c.answer .advance = .token t ∧ t.kind = .endOfFile
  skips : ∀ stops, ∃ n x, c.answer (.skipUntil stops) = .count n ∧
    c.FirstAt (Halts stops) (c.position + n) x ∧ (c.skipUntil stops).position = c.position + n ∧
    (c.skipUntil stops).current = x ∧ c.skipUntil stops = advance^[n] c

theorem staysIn_stream : c.StaysIn c.stream where
  stream_eq := rfl
  position_lt := c.position_lt_length
  position_le := c.position_le_performAll
  answers := c.atPosition?_eq
  advances := c.position_advance_of_lt
  stays_at_last h := ⟨(c.advance_at_last h).1, c.current, rfl, (c.advance_at_last h).2⟩
  skips stops := ⟨_, _, rfl, c.firstAt_skipUntil stops, c.position_skipUntil stops, rfl,
    c.skipUntil_eq_iterate stops⟩

/-- Whatever is done with a cursor over the tokens, it stays inside of them and their closing end of file,
and looking tokens up by positions alone never fails and answers the same. -/
theorem operations_stay_in_stream (tokens : List Token) (ops : List Operation) :
    let stream := Token.closed tokens
    (stream ≠ [] ∧ ∃ last, stream.getLast? = some last ∧ last.kind = .endOfFile) ∧
      Operation.replay? stream 0 ops = some ((ofTokens tokens).record ops) ∧
      ((ofTokens tokens).performAll ops).StaysIn stream := by
  intro stream
  have hstream : (ofTokens tokens).stream = stream := stream_eq_closed tokens
  have hstart : (ofTokens tokens).position = 0 := congrArg List.length (passed_ofTokens tokens)
  -- At the start nothing was passed, so positions in the stream are those of the cursor.
  have hreplay := (ofTokens tokens).replay?_eq ops
  have hstays := ((ofTokens tokens).performAll ops).staysIn_stream
  have hlast : (ofTokens tokens).stream.getLast? = some (ofTokens tokens).closing := List.getLast?_concat ..
  rw [hstream, hstart] at hreplay
  rw [stream_performAll, hstream] at hstays
  rw [hstream] at hlast
  refine ⟨⟨?_, _, hlast, (ofTokens tokens).closing_kind⟩, hreplay, hstays⟩
  intro hnil
  rw [hnil] at hlast
  cases hlast

/-- Skipping ends at an end of file that more tokens follow, and advancing passes it. -/
example :
    let x : Token := ⟨.identifier, "x", .start⟩
    let stop : Token := .endOfFile .start
    (ofTokens [x, stop, x]).record [.skipUntil [], .advance, .peekNext, .advance, .advance] =
      [(.count 1, 1), (.token stop, 2), (.token stop, 2), (.token x, 3), (.token stop, 3)] := by
  decide

end Cursor

end PalChecker
