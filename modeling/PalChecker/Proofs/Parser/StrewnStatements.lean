import PalChecker.Proofs.Parser.SideBySide

/-!
# Statements strewn with stray tokens

A statement without a block has no place for a stray run. In the others the blocks are read beside each
other, and nothing but the blocks differs.
-/

namespace PalChecker.Parser

open Grammar (Construct Rule Strewn)

section

variable {ds : List Diagnostic} {s s' : State} {t x : Token} {u v v' Y Y' : List Token}
  {runs more : List StrayRun}

/-! ## Statements without a block -/

theorem strewnStatement_simple (ht : t.kind ∈ simpleStart) (h : Construct.statement.Reads (t :: u)) :
    StrewnStatement (t :: u) (t :: u) [] where
  start := ⟨t, u, u, rfl, rfl, (by decide : ∀ k ∈ simpleStart, k ∈ TokenKind.statementStart) _ ht⟩
  read {s s' ds y y' rest rest'} hy hy' hbeside := by
    obtain ⟨tree, htree, hspelling⟩ := h
    have hends : Ends y.kind := ends_of_behindStatement hy
    have hkind : s.kind ∈ simpleStart := hbeside.kind ▸ ht
    obtain ⟨hpasses, hpasses', halike⟩ := hbeside.reread
      (f := fun s => (statement s.current s.bump).result) (mirrored_simple hkind hbeside.current_eq)
      ⟨y, rest, y', rest', rfl, rfl, .inr ⟨hends, hy'⟩⟩ fun hs => by
        rw [List.map_append, ← hspelling, List.map_cons] at hs
        exact (rereads_statement htree (by rwa [Token.essence_kind]) hs).2
    rw [List.map_nil, List.append_nil]
    exact ⟨hbeside.passes_cons hpasses hpasses', halike⟩

/-! ## Loops -/

theorem State.Beside.guarded {k : Keyword} {n : Nonterminal}
    (h : s.Beside s' ds (u ++ t :: (v ++ x :: Y)) (u ++ t :: (v' ++ x :: Y')))
    (hu : Construct.condition.Reads u) (ht : t.kind = .keyword k) (hblock : StrewnBlock v v' runs)
    (hx : x.kind ∈ TokenKind.blockEnd) :
    AlikeBy Condition.unnumbered (Parser.condition s).value (Parser.condition s').value ∧
      BlocksBeside (ds ++ runs.map StrayRun.diagnostic)
        (statements TokenKind.blockEnd ((Parser.condition s).state.expect (.keyword k) n).state).result
        (statements TokenKind.blockEnd ((Parser.condition s').state.expect (.keyword k) n).state).result
        (x :: Y) (x :: Y') := by
  obtain ⟨htest, halike⟩ := h.condition hu ht
  exact ⟨halike, hblock.read (fun _ h => h) hx (htest.expect n ht trivial)⟩

theorem strewnStatement_loop {opening closing : Token} (ht : t.kind = .keyword .untilCond)
    (hu : Construct.condition.Reads u) (hopening : opening.kind = .keyword .repeatBody)
    (hblock : StrewnBlock v v' runs) (hclosing : closing.kind = .keyword .endLoop) :
    StrewnStatement (t :: (u ++ opening :: (v ++ [closing]))) (t :: (u ++ opening :: (v' ++ [closing])))
      runs where
  start := ⟨t, _, _, rfl, rfl, by rw [ht]; decide⟩
  read {s s' ds y y' rest rest'} hy hy' h := by
    simp only [List.cons_append, List.append_assoc, List.nil_append] at h
    have hbump := h.bump (by rw [ht]; decide)
    obtain ⟨htest, hend, hbody⟩ :=
      hbump.guarded (n := .loop) hu hopening hblock (by rw [hclosing]; decide)
    have hclosed := hend.expect .loop hclosing trivial
    rw [statement_of_until s.current _ (h.kind.trans ht),
      statement_of_until s'.current _ (h.kind'.trans ht), loop_result, loop_result, h.current_eq]
    exact ⟨hclosed.tick, alike_loop _ _ _ htest hbody⟩

/-! ## Conditionals -/

theorem strewnStatement_conditional {opening closing : Token} (ht : t.kind = .keyword .ifCond)
    (hu : Construct.condition.Reads u) (hopening : opening.kind = .keyword .thenBranch)
    (hblock : StrewnBlock v v' runs) (hclosing : closing.kind = .keyword .endIf) :
    StrewnStatement (t :: (u ++ opening :: (v ++ [closing]))) (t :: (u ++ opening :: (v' ++ [closing])))
      runs where
  start := ⟨t, _, _, rfl, rfl, by rw [ht]; decide⟩
  read {s s' ds y y' rest rest'} hy hy' h := by
    simp only [List.cons_append, List.append_assoc, List.nil_append] at h
    have hbump := h.bump (by rw [ht]; decide)
    obtain ⟨htest, hend, hbody⟩ :=
      hbump.guarded (n := .conditional) hu hopening hblock (by rw [hclosing]; decide)
    have helse : s.bump.thenBlock.state.kind ≠ .keyword .elseBranch := by
      rw [show s.bump.thenBlock.state.kind = _ from hend.kind, hclosing]
      decide
    have helse' : s'.bump.thenBlock.state.kind ≠ .keyword .elseBranch := by
      rw [show s'.bump.thenBlock.state.kind = _ from hend.kind', hclosing]
      decide
    have hclosed := hend.expect .conditional hclosing trivial
    rw [statement_of_if s.current _ (h.kind.trans ht), statement_of_if s'.current _ (h.kind'.trans ht),
      conditional_of_ne_else _ helse, conditional_of_ne_else _ helse', h.current_eq]
    exact ⟨hclosed.tick, alike_conditional _ _ _ htest hbody⟩

theorem strewnStatement_alternative {opening middle closing : Token} {w w' : List Token}
    (ht : t.kind = .keyword .ifCond) (hu : Construct.condition.Reads u)
    (hopening : opening.kind = .keyword .thenBranch) (hblock : StrewnBlock v v' runs)
    (hmiddle : middle.kind = .keyword .elseBranch) (hotherwise : StrewnBlock w w' more)
    (hclosing : closing.kind = .keyword .endIf) :
    StrewnStatement (t :: (u ++ opening :: (v ++ middle :: (w ++ [closing]))))
      (t :: (u ++ opening :: (v' ++ middle :: (w' ++ [closing])))) (runs ++ more) where
  start := ⟨t, _, _, rfl, rfl, by rw [ht]; decide⟩
  read {s s' ds y y' rest rest'} hy hy' h := by
    simp only [List.cons_append, List.append_assoc, List.nil_append] at h
    have hbump := h.bump (by rw [ht]; decide)
    obtain ⟨htest, hend, hbody⟩ :=
      hbump.guarded (n := .conditional) hu hopening hblock (by rw [hmiddle]; decide)
    have hafter := hend.bump (by rw [hmiddle]; decide)
    obtain ⟨hlast, hbody'⟩ := hotherwise.read (fun _ h => h) (by rw [hclosing]; decide) hafter
    have hclosed := hlast.expect .conditional hclosing trivial
    rw [statement_of_if s.current _ (h.kind.trans ht), statement_of_if s'.current _ (h.kind'.trans ht),
      conditional_of_else _ (hend.kind.trans hmiddle), conditional_of_else _ (hend.kind'.trans hmiddle),
      h.current_eq, List.map_append, ← List.append_assoc]
    exact ⟨hclosed.tick, alike_alternative _ _ _ htest hbody hbody'⟩

/-! ## Every statement -/

theorem strewnBlock_of {n : Nat}
    (ih : ∀ {u u' : List Token} {runs : List StrayRun}, u'.length < n →
      Strewn Construct.statement.rule u u' runs → StrewnStatement u u' runs)
    (h : Strewn (.many (.construct .statement)) v v' runs) (hlength : v'.length < n) :
    StrewnBlock v v' runs := by
  generalize hr : Rule.many (.construct .statement) = r at h
  induction h with
  | none => exact .nil
  | behind run => exact .behind run
  | more hu _ _ ihv =>
    cases hr
    rw [List.length_append] at hlength
    have hv := ihv (by omega) rfl
    cases hu with
    | construct hu => exact .cons (ih (by omega) hu) hv
    | before run hu =>
      rw [List.length_append] at hlength
      exact .before run (ih (by omega) hu) hv
  | token | empty | sequence | left | right | construct | before => cases hr

theorem strewnStatement_of_plain {k : TokenKind} {r : Rule} {w w' : List Token} (hk : k ∈ simpleStart)
    (hreads : Construct.statement.Reads w) (h : Strewn (.sequence (.token [k]) r) w w' runs)
    (hr : r.IsPlain) : StrewnStatement w w' runs := by
  obtain ⟨rfl, rfl⟩ := h.plain ⟨trivial, hr⟩
  obtain ⟨t, u, -, rfl, rfl, -⟩ := Grammar.exists_of_strewn_fixed h
  exact strewnStatement_simple hk hreads

section

variable {n : Nat} (hblock : ∀ {v v' : List Token} {runs : List StrayRun},
  Strewn (.many (.construct .statement)) v v' runs → v'.length < n → StrewnBlock v v' runs)

include hblock

theorem strewnStatement_of_loop {w w' : List Token} (hn : w'.length ≤ n)
    (h : Strewn Grammar.loop w w' runs) : StrewnStatement w w' runs := by
  have hcondition : (Rule.construct .condition).IsPlain := ⟨by decide, by decide⟩
  obtain ⟨t, _, _, ht, rfl, rfl, htest⟩ := Grammar.exists_of_strewn_fixed h
  obtain ⟨u, _, _, rfl, rfl, hu, hbody⟩ := Grammar.exists_of_strewn_plain hcondition htest
  obtain ⟨opening, _, _, hopening, rfl, rfl, hend⟩ := Grammar.exists_of_strewn_fixed hbody
  cases hend with
  | sequence hv hend =>
    obtain ⟨closing, _, _, hclosing, rfl, rfl, hnil⟩ := Grammar.exists_of_strewn_fixed hend
    cases hnil with
    | empty =>
      simp only [List.length_cons, List.length_append] at hn
      rw [List.append_nil]
      exact strewnStatement_loop ht hu hopening (hblock hv (by omega)) hclosing

theorem strewnStatement_of_conditional {w w' : List Token} (hn : w'.length ≤ n)
    (h : Strewn Grammar.conditional w w' runs) : StrewnStatement w w' runs := by
  have hcondition : (Rule.construct .condition).IsPlain := ⟨by decide, by decide⟩
  obtain ⟨t, _, _, ht, rfl, rfl, htest⟩ := Grammar.exists_of_strewn_fixed h
  obtain ⟨u, _, _, rfl, rfl, hu, hbody⟩ := Grammar.exists_of_strewn_plain hcondition htest
  obtain ⟨opening, _, _, hopening, rfl, rfl, hend⟩ := Grammar.exists_of_strewn_fixed hbody
  -- Both blocks are shorter than the statement, so the hypothesis on shorter words covers them.
  cases hend with
  | sequence hv hend =>
    cases hend with
    | sequence helse hend =>
      obtain ⟨closing, _, _, hclosing, rfl, rfl, hnil⟩ := Grammar.exists_of_strewn_fixed hend
      cases hnil with
      | empty =>
        simp only [List.length_cons, List.length_append] at hn
        cases helse with
        | left helse =>
          obtain ⟨middle, _, _, hmiddle, rfl, rfl, hlast⟩ := Grammar.exists_of_strewn_fixed helse
          have hw := Grammar.strewn_last hlast
          simp only [List.length_cons] at hn
          rw [List.append_nil]
          exact strewnStatement_alternative ht hu hopening (hblock hv (by omega)) hmiddle
            (hblock hw (by omega)) hclosing
        | right helse =>
          cases helse with
          | empty =>
            simp only [List.append_nil]
            exact strewnStatement_conditional ht hu hopening (hblock hv (by omega)) hclosing

end

theorem strewnStatement_of_rule {w w' : List Token} (h : Strewn Construct.statement.rule w w' runs) :
    StrewnStatement w w' runs := by
  -- The induction is on the length, since a block stands in its statement between two terminals.
  induction hn : w'.length using Nat.strongRecOn generalizing w w' runs with
  | _ n ih =>
    have hblock {v v' : List Token} {runs : List StrayRun}
        (hv : Strewn (.many (.construct .statement)) v v' runs) (hlength : v'.length < n) :
        StrewnBlock v v' runs := strewnBlock_of (fun hlt hu => ih _ hlt hu rfl) hv hlength
    have hreads : Construct.statement.Reads w :=
      Grammar.reads_rule .statement w (h.derives.reads Grammar.reads_rule w rfl)
    have hexpression : (Rule.construct .expression).IsPlain := ⟨by decide, by decide⟩
    cases h with
    | left h => exact strewnStatement_of_plain (by decide) hreads h ⟨trivial, hexpression, trivial⟩
    | right h =>
      cases h with
      | left h => exact strewnStatement_of_loop hblock (Nat.le_of_eq hn) h
      | right h =>
        cases h with
        | left h => exact strewnStatement_of_conditional hblock (Nat.le_of_eq hn) h
        | right h =>
          cases h with
          | left h =>
            have hnames : Grammar.identifiers.IsPlain := ⟨trivial, trivial, trivial⟩
            exact strewnStatement_of_plain (by decide) hreads h ⟨hnames, trivial⟩
          | right h =>
            cases h with
            | left h =>
              have hvalues : (Rule.separated (.punct .comma) (.construct .expression)).IsPlain :=
                ⟨hexpression, trivial, hexpression⟩
              exact strewnStatement_of_plain (by decide) hreads h ⟨hvalues, trivial⟩
            | right h =>
              cases h with
              | token h => exact absurd h List.not_mem_nil

theorem strewnBlock_of_strewn (h : Strewn (.many (.construct .statement)) v v' runs) :
    StrewnBlock v v' runs :=
  strewnBlock_of (fun _ hu => strewnStatement_of_rule hu) h (Nat.lt_succ_self _)

end

end PalChecker.Parser
