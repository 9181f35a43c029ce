import PalChecker.Proofs.EndOfFile
import PalChecker.Proofs.Parser.StepCosts

/-!
# Every parse ends

Whatever the tokens are, a parse takes no more than twenty steps for each token before the end of file, and
ten. Each token pays for the calls and the turns that are taken before the next one.
-/

namespace PalChecker.Parser

/-! ## Statements -/

/-- A statement pays for its own steps and for some around it. -/
abbrev CostsNothing : Reading Statement := fun s a t =>
  Within (-2) (s.consumed + 1) (fun n => Production.run n .statement) s a t

section

variable {s t : State}

theorem CostsNothing.consumes {a : Statement} (h : CostsNothing s a t) : s.ConsumesBefore t :=
  ⟨h.reaches, h.low_le⟩

theorem CostsNothing.of_take {a : Statement} {p : Production Statement}
    {rest : Nat → Token → Stepwise Statement} (hs : s.kind ≠ .endOfFile)
    (hp : Production.ofHead s.kind = p) (hbody : ∀ n, p.body (Production.run n) = Stepwise.take >>= rest n)
    (h : Within 15 s.bump.consumed (fun n => rest n s.current) s.bump a t) : CostsNothing s a t := by
  have hread : Within (-4) (s.consumed + 1) (fun n => p.run n) s a t := by
    apply Within.call
    simp only [hbody]
    exact (Within.take hs (Nat.le_refl _)).bind h
  apply Within.call
  apply Within.get
  simp only [hp]
  apply hread.bind
  apply (Within.stated ⟨hread.reaches, hread.low_le⟩).bind
  exact .pure (by decide)

end

theorem within_statement_rules :
    StatementRules (Costs 6 .expression) (Costs 13 .condition) (CostsLess 3 .identifiers [.identifier] 20)
      (Costs 1 .moreValues) CostsNothing (fun stops => Costs 1 (.statements stops)) where
  assignment h hequals value := by
    obtain ⟨token, htoken⟩ := Option.isSome_iff_exists.mp hequals
    refine CostsNothing.of_take (h ▸ by decide) (congrArg Production.ofHead h) (fun _ => rfl) ?_
    apply Within.finish.bind
    apply (Within.expected (by decide)).bind
    simp only [htoken]
    apply Within.bind value
    exact Within.finish.weaken (by decide) (Nat.le_refl _)
  target h hequals := by
    refine CostsNothing.of_take (h ▸ by decide) (congrArg Production.ofHead h) (fun _ => rfl) ?_
    apply Within.finish.bind
    apply (Within.expected (by decide)).bind
    simp only [hequals]
    apply Within.finish.bind
    exact Within.finish.weaken (by decide) (Nat.le_refl _)
  loop h test body := by
    refine CostsNothing.of_take (h ▸ by decide) (congrArg Production.ofHead h) (fun _ => rfl) ?_
    apply Within.bind test
    apply (Within.expected (by decide)).bind
    apply Within.bind body
    apply (Within.expected (by decide)).bind
    exact Within.finish.weaken (by decide) (Nat.le_refl _)
  conditional {_ _ u _ _} h test whenTrue helse := by
    obtain ⟨hvalue, hstate⟩ := Prod.mk.inj (State.eatAny_of_not_mem (mt List.mem_singleton.mp helse))
    refine CostsNothing.of_take (h ▸ by decide) (congrArg Production.ofHead h) (fun _ => rfl) ?_
    apply Within.bind test
    apply (Within.expected (by decide)).bind
    apply Within.bind whenTrue
    refine Within.bind (b := 0) (t := u) (a := none) ?_ ?_
    · apply ((Within.eatAny (by decide)).of_ready (by decide)).bind
      simp only [hvalue, hstate]
      exact .pure (by decide)
    apply (Within.expected (by decide)).bind
    exact Within.finish.weaken (by decide) (Nat.le_refl _)
  alternative {_ _ u v _ _ block} h test whenTrue helse otherwise := by
    obtain ⟨hvalue, hstate⟩ := Prod.mk.inj (State.eatAny_of_mem (List.mem_singleton.mpr helse))
    refine CostsNothing.of_take (h ▸ by decide) (congrArg Production.ofHead h) (fun _ => rfl) ?_
    apply Within.bind test
    apply (Within.expected (by decide)).bind
    apply Within.bind whenTrue
    refine Within.bind (b := 1) (t := v) (a := some block) ?_ ?_
    · apply ((Within.eatAny (by decide)).of_ready (by decide)).bind
      simp only [hvalue, hstate]
      apply Within.bind otherwise
      exact .pure (by decide)
    apply (Within.expected (by decide)).bind
    exact Within.finish.weaken (by decide) (Nat.le_refl _)
  input {s _ _} h targets := by
    have hhead : s.current.kind = .keyword .input := h
    refine CostsNothing.of_take (h ▸ by decide) (congrArg Production.ofHead h) (fun _ => rfl) ?_
    simp only [if_pos hhead]
    apply (targets.of_ready (by decide)).bind
    exact Within.finish.weaken (by decide) (Nat.le_refl _)
  output {s _ _ _ _} h first rest := by
    have hhead : s.current.kind ≠ .keyword .input := by
      rw [show s.current.kind = .keyword .output from h]
      decide
    refine CostsNothing.of_take (h ▸ by decide) (congrArg Production.ofHead h) (fun _ => rfl) ?_
    simp only [if_neg hhead]
    apply Within.bind first
    apply Within.bind rest
    exact Within.finish.weaken (by decide) (Nat.le_refl _)
  stop h := by
    apply Within.call
    apply Within.get
    simp only [if_pos h]
    exact .pure (by decide)
  step h hstart first rest := by
    apply Within.call
    apply Within.get
    simp only [if_neg h, if_pos hstart]
    apply (first.weaken (Int.le_refl _) (Nat.le_succ _)).bind
    apply (Within.turned fun _ => first.consumes.remaining_lt).bind
    apply Within.bind rest
    exact .pure (by decide)
  skip {_ s _ _} h hstart rest := by
    have hfail : (s.fail .statement).kind ≠ .endOfFile := by
      rw [State.kind_fail]
      exact (not_or.mp h).1
    have hdropped : s.Reaches (s.fail .statement).discard := (State.Reaches.fail _ s).trans (.discard hfail)
    have hmoved : (s.fail .statement).discard.remaining < s.remaining := by
      have := State.remaining_pos (not_or.mp h).1
      rw [State.remaining_discard, State.remaining_fail]
      omega
    have hstepped : s.stepped.remaining < s.remaining :=
      Nat.lt_of_le_of_lt (State.Reaches.synchronize _ _ _).remaining_le hmoved
    apply Within.call
    apply Within.get
    simp only [if_neg h, if_neg hstart]
    -- The token that is dropped pays for this turn.
    apply (Within.modify_of_lt hdropped hmoved).bind
    apply Within.synchronize.bind
    apply (Within.turned fun _ => hstepped).bind
    exact rest.weaken (by decide) (Nat.le_refl _)

/-! ## Declarations -/

theorem State.reaches_dropName (s : State) : s.Reaches s.dropName :=
  dropName_rule (P := s.Reaches) (.refl s) fun h => .discard (h ▸ by decide)

theorem CostsLess.remaining_lt {b c : Int} {s t : State} {a : Declaration}
    (h : CostsLess b .declaration [.identifier] c s a t) (ht : AtDeclaration t) :
    t.remaining < s.remaining := by
  by_cases hs : s.kind ∈ [.identifier]
  · have hwithin := h.within hs
    -- A name with which the group begins is consumed.
    exact State.ConsumesBefore.remaining_lt ⟨hwithin.reaches, hwithin.low_le⟩
  · -- Without one, the name of the next group still lay ahead.
    refine Nat.lt_of_not_le fun hle => hs ?_
    rw [← h.reaches.kind_eq hle]
    exact List.mem_singleton.mpr ht.1

theorem within_declaration_rules :
    DeclarationRules (CostsLess 3 .identifiers [.identifier] 20) (Costs 1 .declType)
      (CostsLess 5 .declaration [.identifier] 20) (Costs 1 .moreDeclarations) (Costs 8 .declarations) where
  real h := by
    apply Within.call
    apply Within.get
    simp only [if_pos h]
    apply (Within.take (h ▸ by decide) (Nat.le_succ _)).bind
    exact .pure (by decide)
  integer {s} h := by
    have hreal : s.kind ≠ .keyword .real := h ▸ by decide
    apply Within.call
    apply Within.get
    simp only [if_neg hreal, if_pos h]
    apply (Within.take (h ▸ by decide) (Nat.le_succ _)).bind
    exact .pure (by decide)
  no_type {s} hreal hinteger := by
    apply Within.call
    apply Within.get
    simp only [if_neg hreal, if_neg hinteger]
    apply (Within.modify ((State.Reaches.fail .type s).trans (State.reaches_dropName _))).bind
    apply Within.synchronize.bind
    exact .pure (by decide)
  group names type := by
    apply Within.call
    apply Within.get
    apply Within.bind names
    apply (Within.expected (by decide)).bind
    apply Within.bind type
    exact Within.finish.weaken (by omega) (Nat.le_refl _)
  stop h := by
    apply Within.call
    apply Within.get
    simp only [if_neg h]
    exact .pure (by decide)
  step {s _ _ _ _} h first rest := by
    -- The name ahead will be consumed, which pays for the turn.
    have hname : s.kind ∈ [.identifier] := List.mem_singleton.mpr h.1
    apply Within.call
    apply Within.get
    simp only [if_pos h]
    apply ((first.within hname).weaken (Int.le_refl _) (Nat.le_succ _)).bind
    apply (Within.turned (l := .groups) first.remaining_lt).bind
    apply Within.bind rest
    exact .pure (by decide)
  groups first rest := by
    apply Within.call
    apply Within.get
    apply (first.of_ready (by decide)).bind
    apply (Within.turned (l := .groups) first.remaining_lt).bind
    apply Within.bind rest
    exact .pure (by decide)

/-! ## Programs -/

theorem costs_expression (s : State) : (Costs 6 .expression).Of s (expression s).result :=
  within_expression_rules.run.1 s

theorem costs_names (s : State) :
    (CostsLess 3 .identifiers [.identifier] 20).Of s (identifiers s).result :=
  within_part_rules.run_names s

theorem costs_statements (stops : List TokenKind) (s : State) :
    (Costs 1 (.statements stops)).Of s (statements stops s).result :=
  within_statement_rules.run costs_expression (within_part_rules.run_test costs_expression) costs_names
    (within_part_rules.run_moreValues costs_expression) stops s

theorem State.reaches_filled (body : List Statement) (s : State) : s.Reaches (s.filled body) :=
  filled_rule (P := s.Reaches) body (.refl s) (.fail .statement s)

theorem State.reaches_ended (s : State) : s.Reaches s.ended :=
  ended_rule (P := s.Reaches) (.refl s) (.fail .program s)

theorem costs_program (tokens : List Token) :
    Costs 10 .program (.ofTokens tokens) (parse tokens).program (parse tokens).final := by
  refine parse_rule (Costs 8 .declarations) (Costs 1 (.statements [.keyword .endProgram]))
    (Costs 10 .program) (within_declaration_rules.run costs_names) (costs_statements _) ?_ tokens
  intro s t u ds ss _ groups block
  apply Within.call
  apply Within.get
  apply (Within.expected (by decide)).bind
  apply (Within.expected (by decide)).bind
  apply (Within.expected (by decide)).bind
  apply Within.bind groups
  apply (Within.expected (by decide)).bind
  apply Within.bind block
  apply (Within.modify (State.reaches_filled ss u)).bind
  apply (Within.expected (by decide)).bind
  apply (Within.modify (State.reaches_ended _)).bind
  exact .pure (by decide)

theorem remaining_parse_le (tokens : List Token) (h : (State.ofTokens tokens).Reaches (parse tokens).final) :
    (State.ofTokens tokens).remaining ≤ (parse tokens).final.remaining + (Token.beforeEnd tokens).length := by
  obtain ⟨between, hpassed, hahead⟩ := h
  have hle := (passed_prefix_beforeEnd tokens).length_le
  have hbetween : (parse tokens).passed = between := hpassed
  have hlength := congrArg List.length hahead
  rw [hbetween] at hle
  simp only [List.length_append, State.length_upcoming] at hlength
  omega

/-- A parse ends within a number of steps that is linear in the tokens before the end of file. Each statement
consumes a token, each turn of a loop that another follows moves forward, and once a factor is read again for
want of an operand, a token is consumed before the next time. -/
theorem parse_ends_within_linear_steps (tokens : List Token) :
    let bound := 20 * (Token.beforeEnd tokens).length + 10
    ∃ steps,
      (∀ fuel, bound ≤ fuel → Production.run fuel .program (.ofTokens tokens) =
        some ((parse tokens).program, (parse tokens).final, steps)) ∧
      steps.length ≤ bound ∧ (∀ x ∈ steps, x.Advances) ∧
        (steps.filterMap Step.retriedAt?).Pairwise State.ConsumesBefore := by
  intro bound
  obtain ⟨steps, hrun, haccounts⟩ := costs_program tokens
  have hpassed := remaining_parse_le tokens haccounts.reaches
  have hcost := haccounts.cost
  have hbound : steps.length ≤ bound := by omega
  exact ⟨steps, fun fuel hfuel => hrun fuel (Nat.le_trans hbound hfuel), hbound, haccounts.advances,
    haccounts.apart⟩

end PalChecker.Parser
