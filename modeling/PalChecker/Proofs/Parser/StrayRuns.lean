import PalChecker.Proofs.Parser.StrewnStatements
import PalChecker.Proofs.Typing.Renumbered

/-!
# Stray runs leave no trace

Each run of stray tokens between statements is one error and is skipped, and what is read is what the
sentence says without it.
-/

namespace PalChecker.Parser

open Grammar (Construct Rule Strewn)

section

variable {ds : List Diagnostic} {s s' : State} {x x' : Token} {u v v' Y Y' rest rest' : List Token}
  {runs : List StrayRun}

/-! ## What stands before the statements -/

theorem rereads_opening (hu : opening.Reads Construct.Reads u) (hx : x.kind ≠ .identifier)
    (h : s.Sees ((u ++ x :: rest).map Token.essence)) :
    (openingFrom s).2.Sees ((x :: rest).map Token.essence) := by
  obtain ⟨_, _, ⟨program, hprogram, rfl⟩, ⟨_, _, ⟨name, hname, rfl⟩, ⟨_, g, ⟨withDecls, hwith, rfl⟩, hg,
    rfl⟩, rfl⟩, rfl⟩ := hu
  obtain ⟨groups, hne, hgroups, hspelling⟩ := Grammar.exists_some_trees hg fun _ h => h
  simp only [List.cons_append, List.nil_append, List.map_cons, List.map_append, ← hspelling] at h
  rw [← Token.essence_kind] at hprogram hname hwith hx
  have hnamed := (sees_expectAny [.keyword .program] .program h hprogram (by decide)).2
  have hlisted := (sees_expectAny [.identifier] .program hnamed hname (by decide)).2
  have hdeclared := (sees_expectAny [.keyword .withDecls] .program hlisted hwith (by decide)).2
  exact (rereads_declarations hne hgroups (fun h => absurd h hx) hdeclared).2

theorem exists_of_strewn_program {w w' : List Token} (h : Strewn (.construct .program) w w' runs) :
    ∃ u inBody v v' endProgram, opening.Reads Construct.Reads u ∧ inBody.kind = .keyword .inBody ∧
      Strewn (.some (.construct .statement)) v v' runs ∧ endProgram.kind = .keyword .endProgram ∧
        w = u ++ inBody :: (v ++ [endProgram]) ∧ w' = u ++ inBody :: (v' ++ [endProgram]) := by
  cases h with
  | construct h =>
    have hgroups : (Rule.some (.construct .group)).IsPlain :=
      ⟨⟨by decide, by decide⟩, by decide, by decide⟩
    obtain ⟨_, _, _, rfl, rfl, hprogram, hnamed⟩ :=
      Grammar.exists_of_strewn_plain (a := .keyword .program) trivial h
    obtain ⟨_, _, _, rfl, rfl, hname, hlisted⟩ :=
      Grammar.exists_of_strewn_plain (a := .token [.identifier]) trivial hnamed
    obtain ⟨_, _, _, rfl, rfl, hwith, hdeclared⟩ :=
      Grammar.exists_of_strewn_plain (a := .keyword .withDecls) trivial hlisted
    obtain ⟨_, _, _, rfl, rfl, hg, hopened⟩ := Grammar.exists_of_strewn_plain hgroups hdeclared
    obtain ⟨inBody, _, _, hin, rfl, rfl, hbody⟩ := Grammar.exists_of_strewn_fixed hopened
    cases hbody with
    | sequence hv hlast =>
      obtain ⟨endProgram, _, _, hend, rfl, rfl, hnil⟩ := Grammar.exists_of_strewn_fixed hlast
      cases hnil with
      | empty =>
        refine ⟨_, inBody, _, _, endProgram,
          ⟨_, _, hprogram, ⟨_, _, hname, ⟨_, _, hwith, hg, rfl⟩, rfl⟩, rfl⟩, hin, by simpa using hv, hend,
          ?_, ?_⟩
        · simp only [List.append_assoc]
        · simp only [List.append_assoc]

/-! ## Statements -/

theorem State.Beside.ended (h : s.Beside s' ds (x :: Y) (x' :: Y')) (hx : x.kind = .endOfFile)
    (hx' : x'.kind = .endOfFile) : s.ended.Beside s'.ended ds (x :: Y) (x' :: Y') := by
  rw [State.ended, State.ended, if_pos (h.kind.trans hx), if_pos (h.kind'.trans hx')]
  exact h

theorem allUnnumbered_eq_nil {body : List Statement} (h : Statement.allUnnumbered body = []) :
    body = [] := by
  cases body with
  | nil => rfl
  | cons first rest => cases h

theorem State.Beside.body {inBody endProgram : Token}
    (h : s.Beside s' ds (inBody :: (v ++ endProgram :: x :: rest))
      (inBody :: (v' ++ endProgram :: x' :: rest')))
    (hin : inBody.kind = .keyword .inBody) (hend : endProgram.kind = .keyword .endProgram)
    (hx : x.kind = .endOfFile) (hx' : x'.kind = .endOfFile) (hblock : StrewnBlock v v' runs)
    (hv : StartsStatement v) :
    BlocksBeside (ds ++ runs.map StrayRun.diagnostic) (bodyFrom s) (bodyFrom s') (x :: rest)
      (x' :: rest') := by
  have hbody := h.expect .program hin trivial
  have hstop : endProgram.kind ∈ [TokenKind.keyword .endProgram] := List.mem_singleton.mpr hend
  obtain ⟨hread, halike⟩ := hblock.read (by decide) hstop hbody
  obtain ⟨t, u, rfl, ht⟩ := hv
  -- Neither body is empty, so that no statement is missed at its end.
  have hne :
      (statements [.keyword .endProgram] (s.expect (.keyword .inBody) .program).state).value ≠ [] :=
    statements_value_ne_nil (by decide) (hbody.kind ▸ ht)
  have hne' :
      (statements [.keyword .endProgram] (s'.expect (.keyword .inBody) .program).state).value ≠ [] :=
    fun hnil => hne (allUnnumbered_eq_nil (halike.trans (congrArg Statement.allUnnumbered hnil)))
  have hclosed := hread.expect .program hend trivial
  refine ⟨?_, halike⟩
  change (endFrom _ _).Beside (endFrom _ _) _ _ _
  rw [endFrom_of_ne_nil hne, endFrom_of_ne_nil hne']
  exact hclosed.toBeside.ended hx hx'

/-! ## Programs -/

theorem strewnBlock_of_some (h : Strewn (.some (.construct .statement)) v v' runs) :
    StrewnBlock v v' runs ∧ StartsStatement v := by
  cases h with
  | sequence hu hv =>
    refine ⟨strewnBlock_of_strewn (.more hu hv), ?_⟩
    cases hu with
    | construct hu | before _ hu =>
      obtain ⟨t, u, -, rfl, -, ht⟩ := (strewnStatement_of_rule hu).start
      exact ⟨t, _, rfl, ht⟩

theorem beside_program {w w' : List Token} (h : Strewn (.construct .program) w w' runs)
    (hx : x.kind = .endOfFile) (hx' : x'.kind = .endOfFile)
    (hs : s.Beside s' ds (w ++ x :: rest) (w' ++ x' :: rest')) :
    (programFrom s).2.Beside (programFrom s').2 (ds ++ runs.map StrayRun.diagnostic) (x :: rest)
        (x' :: rest') ∧
      AlikeBy Program.unnumbered (programFrom s).1 (programFrom s').1 := by
  obtain ⟨u, inBody, v, v', endProgram, hu, hin, hv, hend, rfl, rfl⟩ := exists_of_strewn_program h
  simp only [List.append_assoc, List.cons_append, List.nil_append] at hs
  have hcurrent : s'.current = s.current := by
    obtain ⟨_, _, ⟨program, -, rfl⟩, -, rfl⟩ := hu
    exact hs.current_eq
  have hne : inBody.kind ≠ .identifier := by
    rw [hin]
    decide
  have hfork {Z Z' : List Token} : lookingOn opening u (inBody :: Z) (inBody :: Z') :=
    ⟨⟨inBody, Z, Z', rfl, rfl⟩, fun _ => iff_of_false (fun h => hne h.1) fun h => hne h.1⟩
  obtain ⟨hpasses, hpasses', hname, halike⟩ := hs.reread (f := openingFrom) (mirrored_opening s s') hfork
    (rereads_opening hu hne)
  obtain ⟨hblock, hstarts⟩ := strewnBlock_of_some hv
  obtain ⟨hafter, halikes⟩ := (hs.passes hpasses hpasses').body hin hend hx hx' hblock hstarts
  exact ⟨hafter, alike_program hname halike halikes (location_eq_of_current hcurrent)⟩

theorem beside_ofTokens (tokens tokens' : List Token) :
    ∃ x rest x' rest', x.kind = .endOfFile ∧ x'.kind = .endOfFile ∧
      (State.ofTokens tokens).Beside (State.ofTokens tokens') [] (Token.beforeEnd tokens ++ x :: rest)
        (Token.beforeEnd tokens' ++ x' :: rest') := by
  obtain ⟨x, rest, hx, hstream⟩ := Cursor.exists_endOfFile_ofTokens tokens
  obtain ⟨x', rest', hx', hstream'⟩ := Cursor.exists_endOfFile_ofTokens tokens'
  exact ⟨x, rest, x', rest', hx, hx', hstream, rfl, rfl, hstream', rfl⟩

end

/-- In a sentence strewn with stray runs each of them is one error, reported at its first token. The tree
is that of the sentence but for the numbers of its nodes, and just the same is wrong with its names and
types. -/
theorem stray_runs_are_one_error_each {tokens tokens' : List Token} {runs : List StrayRun}
    (h : Strewn (.construct .program) (Token.beforeEnd tokens) (Token.beforeEnd tokens') runs) :
    Construct.program.Derives ((Token.beforeEnd tokens).map Token.kind) ∧
      (parse tokens').errors.map Finding.diagnostic =
        runs.map (fun run => .syntaxError .statement run.first) ∧
      (parse tokens').program.unnumbered = (parse tokens).program.unnumbered ∧
      (Typing.check (parse tokens').program).map Finding.diagnostic =
        (Typing.check (parse tokens).program).map Finding.diagnostic := by
  obtain ⟨x, rest, x', rest', hx, hx', hbeside⟩ := beside_ofTokens tokens tokens'
  obtain ⟨hend, halike⟩ := beside_program h hx hx' hbeside
  rw [programFrom_ofTokens, programFrom_ofTokens] at hend halike
  exact ⟨h.derives, hend.reported, halike.symm, (diagnostics_check_of_alike halike).symm⟩

/-- One run before the only statement and one behind it. -/
theorem stray_runs_are_one_error_each_tripling :
    let first : StrayRun :=
      ⟨.fixed (.punct .rparen), [.fixed (.keyword .thenBranch)], by decide, by decide⟩
    let second : StrayRun := ⟨⟨.integerLiteral, "7", .start⟩, [], by decide, by decide⟩
    let tokens := tripling.spelling
    let tokens' := tokens.take 7 ++ (first.tokens ++ ((tokens.drop 7).take 7 ++ (second.tokens ++
      tokens.drop 14)))
    Strewn (.construct .program) (Token.beforeEnd tokens) (Token.beforeEnd tokens') [first, second] ∧
      (parse tokens').errors.map Finding.diagnostic =
        [.syntaxError .statement first.first, .syntaxError .statement second.first] := by
  intro first second tokens tokens'
  have hgroup : Construct.group.Derives [.identifier, .keyword .as, .keyword .integer] :=
    Grammar.derives_group (List.forall_mem_singleton.mp canonical_tripling.declarations)
  have hstatement :
      Grammar.Derives Construct.statement.rule (((tokens.drop 7).take 7).map Token.kind) := by
    cases Grammar.derives_statement (List.forall_mem_singleton.mp canonical_tripling.statements) with
    | construct h => exact h
  have hbody : Strewn (.some (.construct .statement)) ((tokens.drop 7).take 7)
      (first.tokens ++ ((tokens.drop 7).take 7 ++ second.tokens)) [first, second] :=
    .sequence (.before first (hstatement.strewn _ rfl)) (.behind second)
  have hgroups :
      Strewn (.some (.construct .group)) ((tokens.drop 3).take 3) ((tokens.drop 3).take 3) [] :=
    .sequence (hgroup.strewn ((tokens.drop 3).take 3) rfl) .none
  have hfixed (k : TokenKind) : Strewn (.token [k]) [.fixed k] [.fixed k] [] :=
    .token List.mem_cons_self
  have hname : Strewn (.token [.identifier]) ((tokens.drop 1).take 1) ((tokens.drop 1).take 1) [] :=
    .token (by decide)
  have hstrewn : Strewn (.construct .program) (Token.beforeEnd tokens) (Token.beforeEnd tokens')
      [first, second] :=
    .construct (.sequence (hfixed _) (.sequence hname (.sequence (hfixed _) (.sequence hgroups
      (.sequence (hfixed _) (.sequence hbody (.sequence (hfixed _) .empty)))))))
  exact ⟨hstrewn, (stray_runs_are_one_error_each hstrewn).2.1⟩

end PalChecker.Parser
