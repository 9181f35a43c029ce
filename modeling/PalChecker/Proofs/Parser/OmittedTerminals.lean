import PalChecker.Proofs.Parser.AlteredConstructs

/-!
# A terminal left out is one error

Whatever sentence a required terminal is left out of, and wherever it stands, there is one error, and
the nonterminal is the one that requires the terminal.
-/

namespace PalChecker.Grammar

/-! ## Where terminals stand -/

/-- The terminals that stand in the rule, those of other constructs aside. -/
def Rule.terminals : Rule → List TokenKind
  | token kinds => kinds
  | empty | construct _ => []
  | sequence a b | either a b => a.terminals ++ b.terminals
  | many body => body.terminals

theorem Place.subset_terminals {c own : Construct} {kinds : List TokenKind} {r : Rule}
    {u v : List TokenKind} (h : Place c (.token kinds) own r u v) :
    c = own ∧ kinds ⊆ r.terminals ∨ kinds ⊆ c.rule.terminals := by
  induction h with
  | here => exact .inl ⟨rfl, List.Subset.refl _⟩
  | first _ _ ih | left _ ih =>
    exact ih.imp_left fun h => ⟨h.1, List.subset_append_of_subset_left _ h.2⟩
  | second _ _ ih | right _ ih =>
    exact ih.imp_left fun h => ⟨h.1, List.subset_append_of_subset_right _ h.2⟩
  | one _ _ ih | later _ _ ih => exact ih
  | inside _ ih =>
    rcases ih with ⟨rfl, h⟩ | h
    · exact .inr h
    · exact .inr h

theorem StandsIn.mem_terminals {c : Construct} {k : TokenKind} {u v : List TokenKind}
    (h : StandsIn c k u v) : k ∈ c.rule.terminals := by
  obtain ⟨kinds, hk, hplace⟩ := h
  rcases hplace.subset_terminals with ⟨rfl, hsubset⟩ | hsubset
  · exact hsubset hk
  · exact hsubset hk

end PalChecker.Grammar

namespace PalChecker.Parser

open Grammar

/-! ## Terminals that are required -/

/-- Terminals that the construct they stand in always requires. A name is required only as that of the
program, and an equals sign as an operator. -/
def alwaysRequired : List TokenKind :=
  [.keyword .program, .keyword .withDecls, .keyword .as, .keyword .real, .keyword .integer,
    .keyword .inBody, .punct .less, .punct .greater, .punct .rparen, .keyword .repeatBody,
    .keyword .thenBranch, .keyword .endLoop, .keyword .endIf, .keyword .endProgram]

theorem isSome_required {c : Construct} :
    ∀ k ∈ c.rule.terminals, k ∈ alwaysRequired → (required c k).isSome := by
  cases c <;> decide

theorem reported_around {P : List Diagnostic → Prop} {c : Construct} {hole : Rule}
    {u v : List TokenKind} {tokens before w behind : List Token}
    (hplace : Place c hole .program Construct.program.rule u v)
    (hhole : hole.Altered (Missing P) (Altered P) c w) (hu : before.map Token.kind = u)
    (hv : behind.map Token.kind = v) (h : Token.beforeEnd tokens = before ++ (w ++ behind)) :
    P ((parse tokens).errors.map Finding.diagnostic) := by
  have haltered := hplace.altered altered_rule hhole before behind hu hv
  rw [← h] at haltered
  obtain ⟨x, rest, hx, hs⟩ := sees_ofTokens (rfl : (Token.beforeEnd tokens).map Token.essence = _)
  have hfault := altered_program haltered hx hs
  rw [programFrom_ofTokens] at hfault
  exact hfault.reported

theorem reported_without {P : List Diagnostic → Prop} {c : Construct} {kinds u v : List TokenKind}
    {tokens : List Token} (hplace : Place c (.token kinds) .program Construct.program.rule u v)
    (hmissing : Missing P c kinds) (h : (Token.beforeEnd tokens).map Token.kind = u ++ v) :
    P ((parse tokens).errors.map Finding.diagnostic) := by
  obtain ⟨before, behind, hbefore, hu, hv⟩ := List.map_eq_append_iff.mp h
  have hhole : (Rule.token kinds).Altered (Missing P) (Altered P) c [] := ⟨hmissing, rfl⟩
  exact reported_around hplace hhole hu hv hbefore

/-- Every token of a sentence is a terminal of some construct. If the construct requires it, the sentence
without it has one error, which the nonterminal that requires it reports. -/
theorem omitted_terminal_is_one_error {u v : List TokenKind} {k : TokenKind}
    (h : Construct.program.Derives (u ++ k :: v)) :
    (∃ c, StandsIn c k u v) ∧
      ∀ c, StandsIn c k u v →
        (k ∈ alwaysRequired → (required c k).isSome) ∧
          ∀ n, required c k = some n → ∀ tokens : List Token,
            (Token.beforeEnd tokens).map Token.kind = u ++ v →
              ∃ seq found, (parse tokens).errors = [⟨seq, .syntaxError n found⟩] := by
  refine ⟨exists_standsIn h, fun c hstands => ⟨isSome_required k hstands.mem_terminals, ?_⟩⟩
  intro n hn tokens htokens
  obtain ⟨kinds, hk, hplace⟩ := hstands
  have hmissing : Missing (∃ found, · = [.syntaxError n found]) c kinds :=
    ⟨k, hk, n, hn, fun found => ⟨found, rfl⟩⟩
  obtain ⟨found, hfound⟩ := reported_without hplace hmissing htokens
  obtain ⟨⟨seq, diagnostic⟩, herrors, hdiagnostic⟩ := List.map_eq_singleton_iff.mp hfound
  exact ⟨seq, found, hdiagnostic ▸ herrors⟩

theorem omitted_terminal_is_one_error_tripling :
    let u := (tripling.spelling.map Token.kind).dropLast
    Construct.program.Derives (u ++ [.keyword .endProgram]) ∧
      ∃ seq found, (parse tripling.spelling.dropLast).errors = [⟨seq, .syntaxError .program found⟩] := by
  intro u
  have hderives : Construct.program.Derives (u ++ [.keyword .endProgram]) :=
    derives_program canonical_tripling
  obtain ⟨⟨c, hc⟩, herror⟩ := omitted_terminal_is_one_error hderives
  have hrequired : required c (.keyword .endProgram) = some .program := by
    have hmem := hc.mem_terminals
    revert hmem
    cases c <;> decide
  refine ⟨hderives, (herror c hc).2 .program hrequired _ ?_⟩
  decide

end PalChecker.Parser
