import PalChecker.Proofs.Parser.OmittedTerminals

/-!
# An equals sign left out

An assignment that lacks its equals sign has no value: what follows is read as statements. Every name in
what was to be the value is then taken for the target of another assignment, and is missed an equals
sign in its turn.
-/

namespace PalChecker.Parser

open Grammar

/-! ## What stands in an expression -/

def expressionKinds : List TokenKind :=
  TokenKind.factorStart ++ [.punct .star, .punct .slash, .punct .rparen]

theorem mem_expressionKinds {e : Expr} (he : e.Canonical) :
    ∀ t ∈ e.spelling, t.kind ∈ expressionKinds := by
  induction e with
  | value _ token =>
    rw [Expr.spelling, List.forall_mem_singleton]
    exact (by decide : ∀ k ∈ TokenKind.value, k ∈ expressionKinds) _ he
  | unary _ sign operand ih =>
    rw [Expr.spelling, List.forall_mem_cons]
    exact ⟨by cases sign <;> decide, ih he.2⟩
  | group _ inner ih =>
    simp only [Expr.spelling, List.forall_mem_cons, List.forall_mem_append]
    exact ⟨⟨by decide, ih he⟩, by decide, fun _ h => absurd h List.not_mem_nil⟩
  | binary _ left op right ihleft ihright =>
    rw [Expr.spelling, List.forall_mem_append, List.forall_mem_cons]
    exact ⟨ihleft he.1, by cases op <;> decide, ihright he.2.1⟩
  | error => exact absurd he not_false

theorem not_halts_of_expression : ∀ k ∈ expressionKinds, k ≠ .identifier →
    ¬(k = .endOfFile ∨ k ∈ Nonterminal.assignment.syncSet ++ [TokenKind.punct .equals]) := by decide

theorem halts_of_behindStatement :
    ∀ k ∈ behindStatement, k ∈ Nonterminal.assignment.syncSet ++ [TokenKind.punct .equals] := by decide

theorem ne_equals_of_behindStatement : ∀ k ∈ behindStatement, k ∉ [TokenKind.punct .equals] := by decide

/-! ## Assignments without an equals sign -/

/-- All errors are of the nonterminal, and there are that many. -/
def AllOf (n : Nonterminal) (count : Nat) (ds : List Diagnostic) : Prop :=
  (∀ d ∈ ds, ∃ found, d = .syntaxError n found) ∧ ds.length = count

theorem AllOf.snoc {n : Nonterminal} {count : Nat} {ds : List Diagnostic} (h : AllOf n count ds)
    (found : Token) : AllOf n (count + 1) (ds ++ [.syntaxError n found]) := by
  refine ⟨List.forall_mem_append.mpr ⟨h.1, List.forall_mem_singleton.mpr ⟨found, rfl⟩⟩, ?_⟩
  rw [List.length_append, h.2, List.length_singleton]

section

variable {s : State} {target x y : Token} {rest : List Token} {count : Nat}

theorem faulted_unassigned {dropped : List Token}
    (h : s.Faulted (AllOf .assignment count) (target :: (dropped ++ y :: rest)))
    (htarget : target.kind = .identifier)
    (hdropped : ∀ t ∈ dropped, t.kind ∈ expressionKinds ∧ t.kind ≠ .identifier)
    (hy : y.kind ∈ behindStatement) :
    (statement s.current s.bump).state.Faulted (AllOf .assignment (count + 1)) (y :: rest) := by
  have hcurrent : s.current.kind = .identifier := h.kind.trans htarget
  have hbump := (h.bump (by rw [htarget]; decide)).tick
  have hfail : (s.bump.tick.fail .assignment).Faulted (AllOf .assignment (count + 1))
      (dropped ++ y :: rest) := by
    refine ⟨by rw [State.upcoming_fail]; exact hbump.stream, ?_⟩
    rw [State.errors_fail_of_not_recovering _ (s := s.bump.tick) rfl, List.map_append]
    exact hbump.reported.snoc _
  -- Of the tokens of a value, an assignment resumes at names only.
  have hresumed := hfail.synchronize
    (fun t ht => not_halts_of_expression _ (hdropped t ht).1 (hdropped t ht).2)
    (.inr (halts_of_behindStatement _ hy))
  have hnot : s.bump.tick.kind ∉ [TokenKind.punct .equals] := by
    cases dropped with
    | nil => exact hbump.kind ▸ ne_equals_of_behindStatement _ hy
    | cons t dropped =>
      have ht := (hdropped t List.mem_cons_self).1
      exact hbump.kind ▸ (by decide : ∀ k ∈ expressionKinds, k ∉ [TokenKind.punct .equals]) _ ht
  obtain ⟨hvalue, hstate⟩ := Prod.mk.inj (State.expectAny_of_absent hnot
    (hresumed.kind ▸ ne_equals_of_behindStatement _ hy))
  rw [(Prod.mk.inj ((statement_of_identifier _ _ hcurrent).trans (assignment_of_none _ hvalue))).2,
    State.expect, hstate]
  exact hresumed.tick.tick

variable {stops : List TokenKind} {more : List Statement}

/-- One error for the target and one for each name behind it. The induction is on what has not been read
or dropped yet. -/
theorem faulted_names (hstops : ∀ k ∈ TokenKind.statementStart, k ∉ stops)
    (hmore : ∀ st ∈ more, st.Canonical) (hx : x.kind ∈ TokenKind.blockEnd) (hstop : x.kind ∈ stops)
    {w dropped : List Token} (hw : ∀ t ∈ w, t.kind ∈ expressionKinds)
    (hdropped : ∀ t ∈ dropped, t.kind ∈ expressionKinds ∧ t.kind ≠ .identifier)
    (htarget : target.kind = .identifier)
    (h : s.Faulted (AllOf .assignment count)
      (target :: (dropped ++ (w ++ (Statement.spellings more ++ x :: rest))))) :
    (statements stops s).state.Faulted
      (AllOf .assignment (count + 1 + (w.map Token.kind).count .identifier)) (x :: rest) := by
  have hstart : s.kind ∈ TokenKind.statementStart := by
    rw [h.kind, htarget]
    decide
  induction w generalizing s target dropped count with
  | nil =>
    obtain ⟨y, behind, hy, hkind⟩ := exists_cons_behind hmore hx rest
    rw [List.nil_append, hy] at h
    have hfault := faulted_unassigned h htarget hdropped hkind
    rw [← hy] at hfault
    rw [(Prod.mk.inj (statements_of_statementStart hstops hstart)).2]
    exact hfault.block stops hstops hmore (.of_blockEnd hx) hstop
  | cons z w ih =>
    -- The induction is on what is neither read nor dropped yet.
    obtain ⟨hz, hw⟩ := List.forall_mem_cons.mp hw
    by_cases hname : z.kind = .identifier
    · -- The name is the target of another assignment.
      have hfault := faulted_unassigned h htarget hdropped (by rw [hname]; decide)
      have hnext : (statement s.current s.bump).state.kind ∈ TokenKind.statementStart := by
        rw [hfault.kind, hname]
        decide
      have hend := ih hw (fun _ h => absurd h List.not_mem_nil) hname hfault hnext
      rw [(Prod.mk.inj (statements_of_statementStart hstops hstart)).2, List.map_cons, hname,
        List.count_cons_self, Nat.add_comm (List.count _ _), ← Nat.add_assoc]
      exact hend
    · -- Any other token is dropped with those before it.
      rw [List.cons_append, List.append_cons] at h
      rw [List.map_cons, List.count_cons_of_ne hname]
      exact ih hw (forall_mem_concat hdropped ⟨hz, hname⟩) htarget h hstart

theorem contained_without_equals {w : List Token} (htarget : target.kind = .identifier)
    (hw : ∀ t ∈ w, t.kind ∈ expressionKinds) :
    Contained (AllOf .assignment (1 + (w.map Token.kind).count .identifier)) (target :: w) where
  start := ⟨target, w, rfl, by rw [htarget]; decide⟩
  block {stops s more x rest} hstops hmore hx hstop hs := by
    have h : s.Faulted (AllOf .assignment 0)
        (target :: ([] ++ (w ++ (Statement.spellings more ++ x :: rest)))) := by
      refine ⟨hs.stream, ?_⟩
      rw [hs.errors]
      exact ⟨fun _ h => absurd h List.not_mem_nil, rfl⟩
    have hend := faulted_names hstops hmore hx hstop hw (fun _ h => absurd h List.not_mem_nil) htarget h
    rwa [Nat.zero_add] at hend

end

/-! ## In every sentence -/

/-- Around any assignment of any sentence: without its equals sign there is one error for the target and
one for each name in the value. So there is one error only if the value has no names. -/
theorem omitted_equals_is_one_error_per_name {c : Construct} {u value v : List TokenKind}
    (hplace : Place c (.construct .statement) .program Construct.program.rule u v)
    (hvalue : Construct.expression.Derives value) :
    Construct.program.Derives (u ++ .identifier :: .punct .equals :: value ++ v) ∧
      ∀ tokens : List Token, (Token.beforeEnd tokens).map Token.kind = u ++ .identifier :: value ++ v →
        (∀ error ∈ (parse tokens).errors, ∃ found, error.diagnostic = .syntaxError .assignment found) ∧
          (parse tokens).errors.length = 1 + value.count .identifier := by
  refine ⟨?_, fun tokens htokens => ?_⟩
  · have hname : Grammar.Derives (.token [.identifier]) [.identifier] := derives_fixed .identifier
    have hstatement : Construct.statement.Derives (.identifier :: .punct .equals :: value) :=
      .construct (.left (.sequence hname (.fixed (.punct .equals) hvalue.last)))
    exact .construct (hplace.derives hstatement)
  · rw [List.append_assoc] at htokens
    obtain ⟨before, _, hbefore, hu, hrest⟩ := List.map_eq_append_iff.mp htokens
    obtain ⟨target, _, rfl, htarget, hrest⟩ := List.map_eq_cons_iff.mp hrest
    obtain ⟨w, behind, rfl, rfl, hv⟩ := List.map_eq_append_iff.mp hrest
    obtain ⟨e, he, hspelling⟩ := hvalue.readsAll w rfl
    have htarget : target.essence.kind = .identifier := target.essence_kind.trans htarget
    have hcontained := contained_without_equals htarget (hspelling ▸ mem_expressionKinds he)
    rw [Token.map_kind_essence] at hcontained
    have haltered : Altered _ .statement (target :: w) := .inl hcontained
    obtain ⟨hall, hlength⟩ := reported_around hplace haltered hu hv hbefore
    rw [List.length_map] at hlength
    exact ⟨fun error herror => hall _ (List.mem_map_of_mem herror), hlength⟩

/-- The value `1 + x * 2` has one name, so there are two errors. -/
theorem omitted_equals_is_one_error_per_name_tripling :
    let u := (tripling.spelling.map Token.kind).take 7
    let value := [.integerLiteral, .punct .plus, .identifier, .punct .star, .integerLiteral]
    Place .program (.construct .statement) .program Construct.program.rule u [.keyword .endProgram] ∧
      Construct.expression.Derives value ∧
        (∀ error ∈ (parse (tripling.spelling.eraseIdx 8)).errors,
          ∃ found, error.diagnostic = .syntaxError .assignment found) ∧
          (parse (tripling.spelling.eraseIdx 8)).errors.length = 2 := by
  intro u value
  have hname : Grammar.Derives (.token [.identifier]) [.identifier] := derives_fixed .identifier
  have hgroup : Construct.group.Derives [.identifier, .keyword .as, .keyword .integer] :=
    derives_group (List.forall_mem_singleton.mp canonical_tripling.declarations)
  have hplace : Place .program (.construct .statement) .program Construct.program.rule u
      [.keyword .endProgram] :=
    .second (derives_fixed _) (.second hname (.second (derives_fixed _)
      (.second (.sequence hgroup .none) (.second (derives_fixed _)
        (.first (.first .here .none) (.sequence (derives_fixed _) .empty))))))
  have hvalue : Construct.expression.Derives value := by
    have hstatement := List.forall_mem_singleton.mp canonical_tripling.statements
    cases hstatement with
    | assignment _ hvalue => exact (isDerived_of_canonical hvalue).expression
  obtain ⟨-, herrors⟩ := omitted_equals_is_one_error_per_name hplace hvalue
  exact ⟨hplace, hvalue, herrors _ (by decide)⟩

end PalChecker.Parser
