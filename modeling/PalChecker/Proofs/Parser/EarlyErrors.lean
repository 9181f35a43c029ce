import PalChecker.Proofs.Parser.History
import PalChecker.Proofs.Parser.Lockstep

/-!
# What was found early stays

A parse looks at the current token and at the next one. So as far as two streams agree, but for the last
token on which they do, the errors that blame their tokens are the same.
-/

namespace PalChecker.Parser

namespace State

/-! ## Before and behind the last shared token -/

/-- Both states did the same and look at two tokens at least that both streams begin with. -/
structure Within (m : Nat) (s s' : State) : Prop extends s.SameHistory s' where
  ahead : ∃ v Y Y', 2 ≤ v.length ∧ s.passed.length + v.length = m ∧ s.upcoming = v ++ Y ∧
    s'.upcoming = v ++ Y'

/-- The errors that blame one of the first `m` tokens, but for the last of these. -/
def locatedWithin (m : Nat) (s : State) : List (Nat × Finding) :=
  s.located.filter fun e => e.1 + 2 ≤ m

/-- Neither state will report one of these again. -/
structure Past (m : Nat) (s s' : State) : Prop where
  length_passed : m ≤ s.passed.length + 1
  length_passed' : m ≤ s'.passed.length + 1
  locatedWithin_eq : s'.locatedWithin m = s.locatedWithin m

variable {m : Nat} {s s' t t' : State}

theorem Precedes.locatedWithin (h : s.Precedes t) (hpast : m ≤ s.passed.length + 1) :
    t.locatedWithin m = s.locatedWithin m := by
  obtain ⟨more, hmore, hplaces⟩ := h.located
  have hnone : more.filter (fun e => e.1 + 2 ≤ m) = [] := by
    rw [List.filter_eq_nil_iff]
    intro e he hinside
    have hplace := hplaces e he
    have hinside : e.1 + 2 ≤ m := of_decide_eq_true hinside
    omega
  unfold State.locatedWithin
  rw [hmore, List.filter_append, hnone, List.append_nil]

theorem Past.later (h : s.Past m s') (hlater : s.Precedes t) (hlater' : s'.Precedes t') :
    t.Past m t' where
  length_passed := Nat.le_trans h.length_passed (Nat.succ_le_succ hlater.length_passed)
  length_passed' := Nat.le_trans h.length_passed' (Nat.succ_le_succ hlater'.length_passed)
  locatedWithin_eq := by
    rw [hlater.locatedWithin h.length_passed, hlater'.locatedWithin h.length_passed', h.locatedWithin_eq]

theorem SameHistory.locatedWithin_eq (h : s.SameHistory s') :
    s'.locatedWithin m = s.locatedWithin m := congrArg (List.filter _) h.located_eq

namespace Within

theorem exists_two (h : s.Within m s') :
    ∃ x y v Y Y', s.passed.length + v.length + 2 = m ∧ s.upcoming = x :: y :: (v ++ Y) ∧
      s'.upcoming = x :: y :: (v ++ Y') := by
  obtain ⟨v, Y, Y', hlength, hm, hs, hs'⟩ := h.ahead
  match v, hlength with
  | x :: y :: v, _ =>
    rw [List.length_cons, List.length_cons] at hm
    exact ⟨x, y, v, Y, Y', by omega, hs, hs'⟩

theorem current_eq (h : s.Within m s') : s'.current = s.current := by
  obtain ⟨x, y, v, Y, Y', -, hs, hs'⟩ := h.exists_two
  rw [current_of_upcoming hs, current_of_upcoming hs']

theorem atDeclaration_iff (h : s.Within m s') : AtDeclaration s' ↔ AtDeclaration s := by
  obtain ⟨x, y, v, Y, Y', -, hs, hs'⟩ := h.exists_two
  rw [Parser.atDeclaration_iff, Parser.atDeclaration_iff, hs, hs']
  exact declares_append_iff (v := []) ⟨y, v ++ Y', v ++ Y, rfl, rfl⟩

theorem passing (h : s.Within m s') (hsame : t.SameHistory t')
    (hpassed : t.passed.length = s.passed.length + 1)
    (hahead : ∀ {x rest}, s.upcoming = x :: rest → t.upcoming = rest)
    (hahead' : ∀ {x rest}, s'.upcoming = x :: rest → t'.upcoming = rest) :
    t.Within m t' ∨ t.Past m t' := by
  obtain ⟨x, y, v, Y, Y', hm, hs, hs'⟩ := h.exists_two
  cases v with
  | nil =>
    -- The only token that is left to share may not be looked at any more.
    rw [List.length_nil] at hm
    refine .inr ⟨by omega, ?_, hsame.locatedWithin_eq⟩
    rw [hsame.passed_eq]
    omega
  | cons z v =>
    refine .inl ⟨hsame, y :: z :: v, Y, Y', ?_, ?_, hahead hs, hahead' hs'⟩
    · exact Nat.le_add_left _ _
    · simp only [List.length_cons] at hm ⊢
      omega

theorem bump (h : s.Within m s') (hs : s.kind ≠ .endOfFile) :
    s.bump.Within m s'.bump ∨ s.bump.Past m s'.bump := by
  have hs' : s'.kind ≠ .endOfFile := by rwa [kind_eq_of_current h.current_eq]
  refine h.passing (h.toSameHistory.bump h.current_eq) ?_ ?_ ?_
  · rw [passed_bump, List.length_append, List.length_singleton]
  · exact fun hx => upcoming_bump_of_cons hx (kind_of_upcoming hx ▸ hs)
  · exact fun hx => upcoming_bump_of_cons hx (kind_of_upcoming hx ▸ hs')

theorem discard (h : s.Within m s') (hs : s.kind ≠ .endOfFile) :
    s.discard.Within m s'.discard ∨ s.discard.Past m s'.discard := by
  have hs' : s'.kind ≠ .endOfFile := by rwa [kind_eq_of_current h.current_eq]
  refine h.passing (h.toSameHistory.discard h.current_eq) ?_ ?_ ?_
  · rw [passed_discard, List.length_append, List.length_singleton]
  · exact fun hx => upcoming_discard_of_cons hx (kind_of_upcoming hx ▸ hs)
  · exact fun hx => upcoming_discard_of_cons hx (kind_of_upcoming hx ▸ hs')

theorem length_skipped {n : Nonterminal} {extra : List TokenKind} {u rest : List Token}
    (hs : s.upcoming = u ++ rest) (hu : ∀ t ∈ u, ¬Cursor.Halts (n.syncSet ++ extra) t) :
    s.passed.length + u.length ≤ (s.synchronize n extra).passed.length := by
  rw [length_synchronize, skipped_eq, hs]
  exact Nat.add_le_add_left
    (length_le_takeWhile (List.prefix_append u rest) fun t ht => decide_eq_true (hu t ht)) _

theorem synchronize (h : s.Within m s') (n : Nonterminal) (extra : List TokenKind) :
    (s.synchronize n extra).Within m (s'.synchronize n extra) ∨
      (s.synchronize n extra).Past m (s'.synchronize n extra) := by
  obtain ⟨v, Y, Y', hlength, hm, hs, hs'⟩ := h.ahead
  obtain ⟨u, y, rfl⟩ : ∃ u y, v = u ++ [y] :=
    ⟨v.dropLast, _, (List.dropLast_concat_getLast (List.ne_nil_of_length_pos (by omega))).symm⟩
  rw [List.length_append, List.length_singleton] at hm
  rw [List.append_assoc] at hs hs'
  by_cases hhalts : ∃ x ∈ u, Cursor.Halts (n.syncSet ++ extra) x
  · -- Skipping ends at a token of `u` at the latest, so `y` is shared and lies further ahead.
    obtain ⟨x, hmem, hx⟩ := hhalts
    obtain ⟨a, b, rfl⟩ := List.append_of_mem hmem
    rw [List.append_assoc, List.cons_append] at hs hs'
    rw [List.length_append, List.length_cons] at hm
    have hpassed := length_synchronize_of_append hs hx
    have hresumed := upcoming_skipped_of_append hs hx
    have hresumed' := upcoming_skipped_of_append hs' hx
    generalize List.dropWhile (fun t => decide ¬Cursor.Halts (n.syncSet ++ extra) t) a = w
      at hpassed hresumed hresumed'
    have hlength : (w ++ x :: (b ++ [y])).length = w.length + b.length + 2 := by
      simp only [List.length_append, List.length_cons, List.length_nil]
      omega
    have hshared (Z : List Token) : w ++ x :: (b ++ ([y] ++ Z)) = w ++ x :: (b ++ [y]) ++ Z := by simp
    refine .inl ⟨h.toSameHistory.synchronize hs hs' hx, w ++ x :: (b ++ [y]), Y, Y', ?_, ?_,
      hresumed.trans (hshared Y), hresumed'.trans (hshared Y')⟩
    · omega
    · omega
  · have hnone : ∀ t ∈ u, ¬Cursor.Halts (n.syncSet ++ extra) t := fun t ht hx => hhalts ⟨t, ht, hx⟩
    have hle := length_skipped hs hnone
    have hle' := length_skipped hs' hnone
    rw [h.passed_eq] at hle'
    refine .inr ⟨by omega, by omega, ?_⟩
    unfold locatedWithin
    rw [located_synchronize, located_synchronize, h.located_eq]

end Within

end State

/-- Two runs part only once the last token that both streams begin with is the current one. -/
def window (m : Nat) : Lockstep where
  names := .identity
  InStep s s' := s.Within m s'
  Apart s s' := s.Past m s'
  current_eq h := h.current_eq
  issued_eq h := h.issued_eq
  atDeclaration_iff h := h.atDeclaration_iff
  tick h := ⟨h.toSameHistory.tick, h.ahead⟩
  fail n h := by
    refine ⟨h.toSameHistory.fail h.current_eq n, ?_⟩
    simpa only [State.upcoming_fail, State.passed_fail] using h.ahead
  bump h hs := h.bump hs.1
  discard h hs := h.discard hs.1
  synchronize n extra h := h.synchronize n extra
  later h hlater hlater' := h.later hlater hlater'

/-! ## Streams -/

theorem ofTokens_eq_of_stream_eq {tokens tokens' : List Token}
    (h : (Cursor.ofTokens tokens').stream = (Cursor.ofTokens tokens).stream) :
    State.ofTokens tokens' = State.ofTokens tokens := by
  have hcursor {c c' : Cursor} (hpassed : c.passed = []) (hpassed' : c'.passed = [])
      (hstream : c'.stream = c.stream) : c' = c := by
    cases c
    cases c'
    subst hpassed hpassed'
    obtain ⟨rfl, hclosing⟩ := List.append_inj' hstream rfl
    cases hclosing
    rfl
  exact congrArg (State.mk · false 0 []) (hcursor (Cursor.passed_ofTokens _) (Cursor.passed_ofTokens _) h)

theorem within_ofTokens {tokens tokens' : List Token} {m : Nat} (hm : 2 ≤ m)
    (hlength : m ≤ (Cursor.ofTokens tokens).stream.length)
    (h : (Cursor.ofTokens tokens').stream.take m = (Cursor.ofTokens tokens).stream.take m) :
    (State.ofTokens tokens).Within m (.ofTokens tokens') := by
  have htake := List.length_take_of_le hlength
  refine ⟨⟨rfl, rfl, rfl⟩, (Cursor.ofTokens tokens).stream.take m, (Cursor.ofTokens tokens).stream.drop m,
    (Cursor.ofTokens tokens').stream.drop m, ?_, ?_, ?_, ?_⟩
  · rwa [htake]
  · rw [htake]
    exact Nat.zero_add m
  · rw [State.upcoming_ofTokens, List.take_append_drop]
  · rw [State.upcoming_ofTokens, ← h, List.take_append_drop]

/-- Two parses that begin within the window find the same there. -/
theorem locatedWithin_parse {tokens tokens' : List Token} {m : Nat}
    (h : (State.ofTokens tokens).Within m (.ofTokens tokens')) :
    (parse tokens').final.locatedWithin m = (parse tokens).final.locatedWithin m := by
  have hfinal (read : List Token) : (parse read).final = (programFrom (.ofTokens read)).2 := by
    rw [programFrom_ofTokens]
  have hagree := agree_program (L := window m) h fun ht hend =>
    Lockstep.follow_of (State.Within.bump ht (by rw [hend]; decide))
  rw [hfinal, hfinal]
  rcases hagree with ⟨-, hwithin⟩ | hpast
  · exact (State.Within.toSameHistory hwithin).locatedWithin_eq
  · exact State.Past.locatedWithin_eq hpast

/-- If two streams agree on their first `m` tokens, what is found wrong with these tokens, but for the last
of them, is the same in both, with the same numbers and in the same order. -/
theorem early_errors_are_shared {tokens tokens' : List Token} {m : Nat}
    (h : (Cursor.ofTokens tokens').stream.take m = (Cursor.ofTokens tokens).stream.take m) :
    (parse tokens).LocatesErrors (Cursor.ofTokens tokens).stream ∧
      (parse tokens').LocatesErrors (Cursor.ofTokens tokens').stream ∧
        (parse tokens').located.filter (fun e => e.1 + 2 ≤ m) =
          (parse tokens).located.filter (fun e => e.1 + 2 ≤ m) := by
  refine ⟨locatesErrors_parse tokens, locatesErrors_parse tokens', ?_⟩
  rcases Nat.lt_or_ge m 2 with hm | hm
  · -- No place is that early.
    have hnone (errors : List (Nat × Finding)) : errors.filter (fun e => e.1 + 2 ≤ m) = [] :=
      List.filter_eq_nil_iff.mpr fun e _ => by simp only [decide_eq_true_eq]; omega
    rw [hnone, hnone]
  · rcases Nat.lt_or_ge (Cursor.ofTokens tokens).stream.length m with hshort | hlength
    · -- The whole stream is shared, with the end of file that closes it.
      have hstream := List.take_of_length_le (Nat.le_of_lt hshort)
      have hlength' := congrArg List.length (h.trans hstream)
      rw [List.length_take] at hlength'
      rw [List.take_of_length_le (by omega), hstream] at h
      have hsame : parse tokens' = parse tokens := by
        unfold parse
        rw [ofTokens_eq_of_stream_eq h]
      rw [hsame]
    · exact locatedWithin_parse (within_ofTokens hm hlength h)

/-- Two streams that differ in their third token only: the first token is blamed in both. -/
theorem early_errors_are_shared_of_conditional :
    let tokens : List Token :=
      [.fixed (.punct .lparen), .fixed (.keyword .ifCond), .fixed (.punct .rparen)]
    let tokens' : List Token :=
      [.fixed (.punct .lparen), .fixed (.keyword .ifCond), .fixed (.keyword .endProgram)]
    (Cursor.ofTokens tokens').stream.take 2 = (Cursor.ofTokens tokens).stream.take 2 ∧
      (parse tokens').located.filter (fun e => e.1 + 2 ≤ 2) =
        (parse tokens).located.filter (fun e => e.1 + 2 ≤ 2) ∧
      (parse tokens).located.filter (fun e => e.1 + 2 ≤ 2) =
        [(0, ⟨0, .syntaxError .program (.fixed (.punct .lparen))⟩)] := by
  intro tokens tokens'
  have hshared : (Cursor.ofTokens tokens').stream.take 2 = (Cursor.ofTokens tokens).stream.take 2 := by
    decide
  exact ⟨hshared, (early_errors_are_shared hshared).2.2, by decide +kernel⟩

end PalChecker.Parser
