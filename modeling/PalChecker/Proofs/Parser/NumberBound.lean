import PalChecker.Proofs.Parser.Faulted
import PalChecker.Proofs.Parser.NumberCosts
import PalChecker.Proofs.Parser.Numbering

/-!
# How many numbers a parse hands out

No more than five numbers are handed out for a token, and two more. A stream of loops that are opened and
never closed takes so many.
-/

namespace PalChecker.Parser

/-! ## Loops that are opened only -/

/-- At the begin of a loop or at the end of file, where whatever is read next resumes at once. -/
def AtLoop (s : State) : Prop := s.kind = .endOfFile ∨ s.kind = .keyword .untilCond

theorem AtLoop.kind_ne {s : State} (h : AtLoop s) {k : TokenKind}
    (hk : k ≠ .endOfFile ∧ k ≠ .keyword .untilCond) : s.kind ≠ k := by
  rintro rfl
  exact h.elim hk.1 hk.2

theorem AtLoop.resumes {s : State} (h : AtLoop s) (n : Nonterminal) :
    s.kind = .endOfFile ∨ s.kind ∈ n.syncSet := by
  refine h.imp_right fun hkind => ?_
  rw [hkind]
  cases n <;> decide

theorem AtLoop.kind_not_mem {s : State} (h : AtLoop s) {kinds : List TokenKind}
    (hkinds : .endOfFile ∉ kinds ∧ .keyword .untilCond ∉ kinds) : s.kind ∉ kinds := by
  rcases h with h | h <;> rw [h]
  · exact hkinds.1
  · exact hkinds.2

theorem AtLoop.expectAny_result {s : State} (h : AtLoop s) (kinds : List TokenKind) (n : Nonterminal)
    (hkinds : .endOfFile ∉ kinds ∧ .keyword .untilCond ∉ kinds) :
    (s.expectAny kinds n).result = (none, s.recovered n kinds) :=
  State.expectAny_of_missing (h.kind_not_mem hkinds) (h.resumes n)

/-- `s` and `t` are at one token, `k` numbers apart, and at `t` an error is recovered from. -/
structure State.Stalls (s : State) (k : Nat) (t : State) : Prop where
  upcoming : t.upcoming = s.upcoming
  recovering : t.recovering = true
  issued : t.issued = s.issued + k

namespace State.Stalls

variable {s t u : State} {j k : Nat}

theorem refl (hs : s.recovering = true) : s.Stalls 0 s := ⟨rfl, hs, rfl⟩

theorem trans (h : s.Stalls j t) (h' : t.Stalls k u) : s.Stalls (j + k) u :=
  ⟨h'.upcoming.trans h.upcoming, h'.recovering, by rw [h'.issued, h.issued, Nat.add_assoc]⟩

theorem atLoop (h : s.Stalls k t) (hs : AtLoop s) : AtLoop t := by
  obtain ⟨rest, hrest⟩ := s.exists_upcoming
  have hkind : t.kind = s.kind := kind_of_upcoming (h.upcoming.trans hrest)
  unfold AtLoop
  rwa [hkind]

theorem tick (h : s.Stalls k t) : s.Stalls (k + 1) t.tick :=
  ⟨h.upcoming, h.recovering, congrArg (· + 1) h.issued⟩

theorem fail (n : Nonterminal) (s : State) : s.Stalls s.errorCost (s.fail n) :=
  ⟨s.upcoming_fail n, s.recovering_fail n, s.issued_fail n⟩

theorem recovered (hs : AtLoop s) (n : Nonterminal) (kinds : List TokenKind) :
    s.Stalls s.errorCost (s.recovered n kinds) :=
  ⟨upcoming_recovered (hs.resumes n), s.recovering_fail n, s.issued_fail n⟩

theorem expectAny (hs : AtLoop s) (kinds : List TokenKind) (n : Nonterminal)
    (hkinds : .endOfFile ∉ kinds ∧ .keyword .untilCond ∉ kinds) :
    s.Stalls s.errorCost (s.expectAny kinds n).state := by
  rw [(Prod.mk.inj (hs.expectAny_result kinds n hkinds)).2]
  exact recovered hs n kinds

theorem andThen (h : s.Stalls j t) (hs : AtLoop s) (h' : AtLoop t → t.Stalls (t.errorCost + k) u) :
    s.Stalls (j + k) u := by
  have hmore := h' (h.atLoop hs)
  rw [errorCost_of_recovering h.recovering, Nat.zero_add] at hmore
  exact h.trans hmore

theorem andExpect (h : s.Stalls k t) (hs : AtLoop s) (kind : TokenKind) (n : Nonterminal)
    (hkind : .endOfFile ∉ [kind] ∧ .keyword .untilCond ∉ [kind]) : s.Stalls k (t.expect kind n).state :=
  h.andThen (k := 0) hs fun ht => expectAny ht [kind] n hkind

end State.Stalls

/-- Reading there takes `k` numbers, and one for an error if it is reported. -/
abbrev Stalling (k : Nat) {α : Type} : Reading α := fun s _ t => AtLoop s → s.Stalls (s.errorCost + k) t

theorem stalling_expression_rules :
    ExpressionRules (Stalling 1) (Stalling 1) (Stalling 1) (Stalling 1) (fun _ s _ t => AtLoop s → t = s)
      (fun _ s _ t => AtLoop s → t = s) where
  sum first rest hs := rest ((first hs).atLoop hs) ▸ first hs
  sums_stop _ _ := rfl
  sums_step h _ _ hs := absurd (mem_of_additive h) (hs.kind_not_mem (by decide))
  product first rest hs := rest ((first hs).atLoop hs) ▸ first hs
  products_stop _ _ := rfl
  products_step h _ _ hs := absurd (mem_of_multiplicative h) (hs.kind_not_mem (by decide))
  signed h _ hs := absurd (mem_of_sign h) (hs.kind_not_mem (by decide))
  unsigned _ operand := operand
  value h hs := absurd h (hs.kind_not_mem (by decide))
  group h _ hs := absurd h (hs.kind_ne (by decide))
  retry _ h _ hs :=
    absurd h (((State.Stalls.recovered hs .factor []).atLoop hs).kind_not_mem (by decide))
  error _ _ hs := (State.Stalls.recovered hs .factor []).tick

theorem stalling_part_rules :
    PartRules (Stalling 1) (Stalling 3) (Stalling 0) (fun s _ t => AtLoop s → t = s) (Stalling 0)
      fun _ _ _ => True where
  test left right hs :=
    (((left hs).andThen (k := 0) hs fun ht => .expectAny ht _ .booleanExpr (by decide)).andThen hs right).tick
  name := by
    intro s token name hname hs
    obtain ⟨hvalue, -⟩ := Prod.mk.inj (hs.expectAny_result [.identifier] .identList (by decide))
    cases hvalue.symm.trans hname
  no_name _ hs := .expectAny hs _ .identList (by decide)
  names_stop _ _ := rfl
  names_step h _ _ hs := absurd h (hs.kind_ne (by decide))
  names first rest hs := rest ((first hs).atLoop hs) ▸ first hs
  values_stop _ := trivial
  values_step _ _ _ := trivial

theorem stalling_declaration_rules :
    DeclarationRules (Stalling 0) (Stalling 0) (Stalling 1) (fun s _ t => AtLoop s → t = s)
      (Stalling 1) where
  real h hs := absurd h (hs.kind_ne (by decide))
  integer h hs := absurd h (hs.kind_ne (by decide))
  no_type {s} _ _ hs := by
    have hname : (s.fail .type).kind ≠ .identifier := by
      rw [State.kind_fail]
      exact hs.kind_ne (by decide)
    rw [State.untyped, State.dropName, if_neg hname]
    exact .recovered hs .type []
  group names type hs := (((names hs).andExpect hs _ _ (by decide)).andThen (k := 0) hs type).tick
  stop _ _ := rfl
  step h _ _ hs := absurd h.1 (hs.kind_ne (by decide))
  groups first rest hs := rest ((first hs).atLoop hs) ▸ first hs

/-- `u` opens loops only, up to the end of file `x`, and each loop takes five numbers. -/
def Opening (x : Token) (rest : List Token) {α : Type} : Reading α := fun s _ t =>
  ∀ u : List Token, (∀ y ∈ u, y.kind = .keyword .untilCond) → s.upcoming = u ++ x :: rest →
    s.recovering = true →
      t.upcoming = x :: rest ∧ t.recovering = true ∧ t.issued = s.issued + 5 * u.length

section

variable {x : Token} {rest : List Token} (hx : x.kind = .endOfFile)
include hx

theorem atLoop_of_upcoming {s : State} {u : List Token} (hu : ∀ y ∈ u, y.kind = .keyword .untilCond)
    (hs : s.upcoming = u ++ x :: rest) : AtLoop s := by
  cases u with
  | nil => exact .inl ((State.kind_of_upcoming hs).trans hx)
  | cons y u => exact .inr ((State.kind_of_upcoming hs).trans (hu y List.mem_cons_self))

theorem opens_loop {s t w : State} {y : Token} {u : List Token} (hu : ∀ z ∈ y :: u, z.kind = .keyword .untilCond)
    (hs : s.upcoming = y :: u ++ x :: rest) (htest : AtLoop s.bump → s.bump.Stalls 4 t) {body : List Statement}
    (hbody : Opening x rest (t.expect (.keyword .repeatBody) .loop).state body w) :
    let close := (w.expect (.keyword .endLoop) .loop).state
    close.tick.upcoming = x :: rest ∧ close.tick.recovering = true ∧
      close.tick.issued = s.issued + 5 * (y :: u).length := by
  intro close
  obtain ⟨hy, hu⟩ := List.forall_mem_cons.mp hu
  have hbump : s.bump.upcoming = u ++ x :: rest := State.upcoming_bump_of_cons hs (by rw [hy]; decide)
  have hloop : AtLoop s.bump := atLoop_of_upcoming hx hu hbump
  have hopen := (htest hloop).andExpect hloop (.keyword .repeatBody) .loop (by decide)
  obtain ⟨hahead, hrecovering, hseq⟩ := hbody u hu (hopen.upcoming.trans hbump) hopen.recovering
  have hend : AtLoop w := .inl ((State.kind_of_upcoming hahead).trans hx)
  have hclose : w.Stalls 1 close.tick :=
    ((State.Stalls.refl hrecovering).andExpect hend (.keyword .endLoop) .loop (by decide)).tick
  -- Four numbers for the condition and its error, and one for the loop when it is complete.
  refine ⟨hclose.upcoming.trans hahead, hclose.recovering, ?_⟩
  rw [hclose.issued, hseq, hopen.issued, State.issued_bump, List.length_cons]
  omega

theorem opening_statement_rules :
    StatementRules (Stalling 1) (Stalling 3) (fun _ _ _ => True) (fun _ _ _ => True) (Opening x rest)
      fun stops s body t => .keyword .untilCond ∉ stops → Opening x rest s body t where
  assignment h _ _ u hu hs _ := absurd h ((atLoop_of_upcoming hx hu hs).kind_ne (by decide))
  target h _ u hu hs _ := absurd h ((atLoop_of_upcoming hx hu hs).kind_ne (by decide))
  loop h test body u hu hs _ := by
    -- Every token before `x` opens a loop, so that no other statement starts.
    cases u with
    | nil => cases h.symm.trans ((State.kind_of_upcoming hs).trans hx)
    | cons y u => exact opens_loop hx hu hs test (body (by decide))
  conditional h _ _ _ u hu hs _ := absurd h ((atLoop_of_upcoming hx hu hs).kind_ne (by decide))
  alternative h _ _ _ _ u hu hs _ := absurd h ((atLoop_of_upcoming hx hu hs).kind_ne (by decide))
  input h _ u hu hs _ := absurd h ((atLoop_of_upcoming hx hu hs).kind_ne (by decide))
  output h _ _ u hu hs _ := absurd h ((atLoop_of_upcoming hx hu hs).kind_ne (by decide))
  stop h hstops u hu hs hrecovering := by
    cases u with
    | nil => exact ⟨hs, hrecovering, rfl⟩
    | cons y u =>
      rw [(State.kind_of_upcoming hs).trans (hu y List.mem_cons_self)] at h
      exact absurd h (not_or.mpr ⟨by decide, hstops⟩)
  step _ _ first block hstops u hu hs hrecovering := by
    obtain ⟨hahead, hrecovering', hseq⟩ := first u hu hs hrecovering
    obtain ⟨hend, hended, hsame⟩ := block hstops [] (fun _ h => absurd h List.not_mem_nil) hahead hrecovering'
    exact ⟨hend, hended, hsame.trans hseq⟩
  skip h hstart _ _ u hu hs _ := by
    refine (atLoop_of_upcoming hx hu hs).elim (fun hend => absurd (.inl hend) h) fun hloop => ?_
    rw [hloop] at hstart
    exact absurd (by decide) hstart

end

theorem stalls_expression (s : State) : (Stalling 1).Of s (expression s).result :=
  stalling_expression_rules.run.1 s

theorem State.Stalls.filled {s : State} (h : s.recovering = true) (body : List Statement) :
    s.Stalls 0 (s.filled body) := by
  refine filled_rule (P := s.Stalls 0) body (.refl h) ?_
  rw [← State.errorCost_of_recovering h]
  exact .fail .statement s

/-- As many numbers as there can be are handed out, if each token opens a loop. -/
theorem issued_parse_of_loops {tokens : List Token}
    (h : ∀ t ∈ Token.beforeEnd tokens, t.kind = .keyword .untilCond) :
    (parse tokens).final.issued = 5 * (Token.beforeEnd tokens).length + 2 := by
  obtain ⟨x, rest, hx, hstart⟩ := Cursor.exists_endOfFile_ofTokens tokens
  have hblock (s : State) : (Opening x rest).Of s (statements [.keyword .endProgram] s).result :=
    (opening_statement_rules hx).run stalls_expression (stalling_part_rules.run_test stalls_expression)
      (fun _ => trivial) (fun _ => trivial) [.keyword .endProgram] s (by decide)
  have hwhole := parse_rule (Stalling 1) (Opening x rest)
    (fun s _ t => s.upcoming = Token.beforeEnd tokens ++ x :: rest →
      t.issued = s.issued + s.errorCost + 1 + 5 * (Token.beforeEnd tokens).length)
    (stalling_declaration_rules.run stalling_part_rules.run_names) hblock ?_ tokens
  · rw [hwhole hstart, Nat.add_comm]
    rfl
  intro s t w ds ss name groups block hs
  have hloop : AtLoop s := atLoop_of_upcoming hx h hs
  -- The header is one error, and the group that should follow takes a number.
  have hheader : s.Stalls s.errorCost _ :=
    ((State.Stalls.expectAny hloop [.keyword .program] .program (by decide)).andExpect hloop
      .identifier .program (by decide)).andExpect hloop (.keyword .withDecls) .program (by decide)
  have hopening := (hheader.andThen hloop groups).andExpect hloop (.keyword .inBody) .program (by decide)
  obtain ⟨hahead, hrecovering, hseq⟩ := block _ h (hopening.upcoming.trans hs) hopening.recovering
  have hend : AtLoop w := .inl ((State.kind_of_upcoming hahead).trans hx)
  have hclose := (State.Stalls.filled hrecovering ss).andExpect hend (.keyword .endProgram) .program (by decide)
  have hstop := (State.kind_of_upcoming (hclose.upcoming.trans hahead)).trans hx
  rw [State.ended, if_pos hstop, hclose.issued, hseq, hopening.issued]
  omega

/-! ## Numbers of 32 bits -/

/-- A parse hands out no more than five numbers for each token before the end of file, and two. So many are
handed out if all these tokens open loops. As long as they are no more than 858993458, the counter of 32 bits
never overflows, and no two errors or nodes have one number. -/
theorem at_most_five_numbers_per_token (tokens : List Token) :
    let n := (Token.beforeEnd tokens).length
    (parse tokens).final.issued ≤ 5 * n + 2 ∧
      ((∀ t ∈ Token.beforeEnd tokens, t.kind = .keyword .untilCond) →
        (parse tokens).final.issued = 5 * n + 2) ∧
      (n ≤ 858993458 →
        ¬(parse tokens).Overflows ∧
          (∀ k ≤ (parse tokens).final.issued, (SeqNumber.ofNat k).toNat = k) ∧ (parse tokens).seqs.Nodup) := by
  intro n
  refine ⟨issued_parse_le tokens, issued_parse_of_loops, fun hn => ?_⟩
  have hfew : ¬(parse tokens).Overflows := not_overflows_of_length_le hn
  have hsmall : (parse tokens).final.issued < UInt32.size := Nat.lt_of_not_le hfew
  exact ⟨hfew, fun k hk => SeqNumber.toNat_ofNat_of_lt (Nat.lt_of_le_of_lt hk hsmall),
    (nodup_seqs_iff tokens).mpr (Nat.le_of_lt hsmall)⟩

/-- Two loops, the second in the first: besides five numbers each there is one for the error at the begin, and
one for the group that should be there. -/
theorem at_most_five_numbers_per_token_of_loops :
    let tokens : List Token := [.fixed (.keyword .untilCond), .fixed (.keyword .untilCond)]
    (∀ t ∈ Token.beforeEnd tokens, t.kind = .keyword .untilCond) ∧ (parse tokens).final.issued = 12 ∧
      (SeqNumber.ofNat 12).toNat = 12 ∧ (parse tokens).seqs.Nodup := by
  intro tokens
  have hloops : ∀ t ∈ Token.beforeEnd tokens, t.kind = .keyword .untilCond := by decide
  obtain ⟨-, hreached, hwords⟩ := at_most_five_numbers_per_token tokens
  have hcount : (parse tokens).final.issued = 12 := hreached hloops
  obtain ⟨-, hvalue, hnodup⟩ := hwords (by decide)
  exact ⟨hloops, hcount, hvalue 12 (Nat.le_of_eq hcount.symm), hnodup⟩

/-- With one loop more than that the counter comes to its end, and two have one number. -/
theorem not_nodup_seqs_of_loops {tokens : List Token}
    (h : ∀ t ∈ Token.beforeEnd tokens, t.kind = .keyword .untilCond)
    (hmany : 858993458 < (Token.beforeEnd tokens).length) :
    (parse tokens).Overflows ∧ ¬(parse tokens).seqs.Nodup := by
  have hissued := issued_parse_of_loops h
  have hsize : UInt32.size = 4294967296 := rfl
  rw [Outcome.Overflows, nodup_seqs_iff]
  omega

end PalChecker.Parser
