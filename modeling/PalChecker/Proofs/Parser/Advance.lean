import PalChecker.Proofs.Parser.Progress

/-!
# How far a run gets before its first error

A run reads a word of its rule, or its first error comes after tokens that some word of the rule begins
with. Both are said of every rule, so a production is the composition of its parts.
-/

namespace PalChecker.Grammar

/-! ## Rules that have words -/

/-- Has a word, if every construct has one. -/
def Rule.isProductive : Rule → Bool
  | token kinds => !kinds.isEmpty
  | empty | many _ | construct _ => true
  | sequence first second => first.isProductive && second.isProductive
  | either left right => left.isProductive || right.isProductive

theorem Construct.exists_word (c : Construct) : ∃ w, c.Derives w := by
  let name : Token := ⟨.identifier, "x", .start⟩
  have hname : Ident.IsName ⟨.blank, name⟩ := rfl
  have hvalue : Expr.Canonical (.value .blank name) := List.mem_cons_self
  have hword := isDerived_of_canonical hvalue
  cases c with
  | program => exact ⟨_, derives_program Parser.canonical_tripling⟩
  | group =>
    exact ⟨_, derives_group (d := ⟨.blank, [⟨.blank, name⟩], some .real⟩)
      ⟨List.cons_ne_nil _ _, List.forall_mem_singleton.mpr hname, rfl⟩⟩
  | statement =>
    have hassignment : Statement.Canonical (.assignment .blank ⟨.blank, name⟩ _) :=
      .assignment hname hvalue
    exact ⟨_, derives_statement hassignment⟩
  | condition =>
    exact ⟨_, derives_condition (c := ⟨.blank, _, some .less, _⟩) ⟨hvalue, rfl, hvalue⟩⟩
  | expression => exact ⟨_, hword.expression⟩
  | term => exact ⟨_, hword.term not_false⟩
  | factor => exact ⟨_, hword.factor not_false⟩

theorem Rule.exists_word {r : Rule} (h : r.isProductive = true) : ∃ w, Derives r w := by
  induction r with
  | token kinds =>
    cases kinds with
    | nil => cases h
    | cons k kinds => exact ⟨[k], .token List.mem_cons_self⟩
  | empty => exact ⟨[], .empty⟩
  | sequence a b iha ihb =>
    obtain ⟨ha, hb⟩ := (Bool.and_eq_true ..).mp h
    obtain ⟨u, hu⟩ := iha ha
    obtain ⟨v, hv⟩ := ihb hb
    exact ⟨u ++ v, .sequence hu hv⟩
  | either a b iha ihb =>
    rcases (Bool.or_eq_true ..).mp h with h | h
    · obtain ⟨u, hu⟩ := iha h
      exact ⟨u, .left hu⟩
    · obtain ⟨u, hu⟩ := ihb h
      exact ⟨u, .right hu⟩
  | many => exact ⟨[], .none⟩
  | construct c => exact c.exists_word

theorem Derives.of_some {body : Rule} {u : List TokenKind} (h : Derives (.some body) u) :
    Derives (.many body) u := by
  cases h with
  | sequence hfirst hrest => exact .more hfirst hrest

theorem Derives.sequence_imp {a a' b : Rule} {u : List TokenKind}
    (h : ∀ {v}, Derives a v → Derives a' v) (hu : Derives (.sequence a b) u) :
    Derives (.sequence a' b) u := by
  cases hu with
  | sequence hfirst hrest => exact .sequence (h hfirst) hrest

theorem Derives.some_of_many_append {body : Rule} {u v : List TokenKind}
    (h : Derives (.many body) u) (hv : Derives body v) : Derives (.some body) (u ++ v) := by
  cases h with
  | none =>
    have := Derives.sequence hv (Derives.none (a := body))
    rwa [List.append_nil] at this
  | more hfirst hrest =>
    rw [List.append_assoc]
    exact .sequence hfirst (hrest.many_snoc hv)

end PalChecker.Grammar

namespace PalChecker.Parser

open Grammar (Rule Derives Construct)

/-! ## Advancing -/

/-- The first error from `s` to `t` was reported when exactly `u` had been consumed. -/
def State.FailsAfter (s : State) (u : List Token) (t : State) : Prop :=
  ∃ (m : State) (n : Nonterminal), s.Passes u m ∧ (m.fail n).Precedes t

/-- Without an error a word of `r` is consumed, and up to the first error what a word begins with. -/
structure Advances (r : Rule) (s t : State) : Prop where
  later : s.Precedes t
  clean : s.recovering = false → t.errors = s.errors →
    ∃ u, s.Passes u t ∧ Derives r (u.map Token.kind)
  failed : s.recovering = false → t.errors ≠ s.errors →
    ∃ u v, s.FailsAfter u t ∧ Derives r (u.map Token.kind ++ v)

namespace Advances

variable {a b r : Rule} {s t w : State}

theorem pure (h : Derives r []) : Advances r s s where
  later := .refl s
  clean _ _ := ⟨[], .refl s, h⟩
  failed _ hne := absurd rfl hne

theorem andThen (ha : Advances a s t) (hb : Advances b t w) (hword : b.isProductive = true) :
    Advances (.sequence a b) s w where
  later := ha.later.trans hb.later
  clean hs herrors := by
    obtain ⟨hst, htw⟩ := eq_of_prefix_of_prefix ha.later.errors hb.later.errors herrors
    obtain ⟨u, hu, hderives⟩ := ha.clean hs hst
    obtain ⟨v, hv, hderives'⟩ := hb.clean (hu.not_recovering hs) htw
    exact ⟨u ++ v, hu.trans hv, List.map_append ▸ .sequence hderives hderives'⟩
  failed hs herrors := by
    by_cases hst : t.errors = s.errors
    · obtain ⟨u, hu, hderives⟩ := ha.clean hs hst
      obtain ⟨v, z, ⟨m, n, hm, hfail⟩, hderives'⟩ :=
        hb.failed (hu.not_recovering hs) (hst ▸ herrors)
      refine ⟨u ++ v, z, ⟨m, n, hu.trans hm, hfail⟩, ?_⟩
      rw [List.map_append, List.append_assoc]
      exact .sequence hderives hderives'
    · -- The first part fails, and its word goes on with any word of the second.
      obtain ⟨u, v, ⟨m, n, hm, hfail⟩, hderives⟩ := ha.failed hs hst
      obtain ⟨z, hz⟩ := Rule.exists_word hword
      refine ⟨u, v ++ z, ⟨m, n, hm, hfail.trans hb.later⟩, ?_⟩
      rw [← List.append_assoc]
      exact .sequence hderives hz

theorem imp (ha : Advances a s t) (h : ∀ {v}, Derives a v → Derives b v) : Advances b s t where
  later := ha.later
  clean hs herrors := by
    obtain ⟨u, hu, hderives⟩ := ha.clean hs herrors
    exact ⟨u, hu, h hderives⟩
  failed hs herrors := by
    obtain ⟨u, v, hu, hderives⟩ := ha.failed hs herrors
    exact ⟨u, v, hu, h hderives⟩

theorem tick (ha : Advances a s t) : Advances a s t.tick where
  later := ha.later.tick
  clean hs herrors := by
    obtain ⟨u, hu, hderives⟩ := ha.clean hs herrors
    exact ⟨u, hu.tick, hderives⟩
  failed := ha.failed

theorem of_tick (ha : Advances a s.tick t) : Advances a s t where
  later := ha.later
  clean hs herrors := by
    obtain ⟨u, hu, hderives⟩ := ha.clean hs herrors
    exact ⟨u, hu.of_tick, hderives⟩
  failed hs herrors := by
    obtain ⟨u, v, ⟨m, n, hm, hfail⟩, hderives⟩ := ha.failed hs herrors
    exact ⟨u, v, ⟨m, n, hm.of_tick, hfail⟩, hderives⟩

theorem ofFail {n : Nonterminal} (h : (s.fail n).Precedes t) (hword : r.isProductive = true) :
    Advances r s t where
  later := ((State.Precedes.refl s).fail n).trans h
  clean hs herrors := by
    have := h.errors.length_le
    rw [State.errors_fail_of_not_recovering n hs, herrors, List.length_append] at this
    exact absurd this (by simp)
  failed _ _ := by
    obtain ⟨v, hv⟩ := Rule.exists_word hword
    exact ⟨[], v, ⟨s, n, .refl s, h⟩, hv⟩

theorem last (ha : Advances a s t) : Advances (.sequence a .empty) s t := ha.imp Grammar.Derives.last

theorem left (ha : Advances a s t) : Advances (.either a b) s t := ha.imp .left

theorem right (hb : Advances b s t) : Advances (.either a b) s t := hb.imp .right

theorem of_rule (c : Construct) (h : Advances c.rule s t) : Advances (.construct c) s t :=
  h.imp .construct

theorem more (ha : Advances a s t) (hb : Advances (.many a) t w) : Advances (.many a) s w :=
  (ha.andThen hb rfl).imp .of_some

theorem bump {kinds : List TokenKind} (h : s.kind ∈ kinds) (heof : .endOfFile ∉ kinds) :
    Advances (.token kinds) s s.bump where
  later := (State.Precedes.refl s).bump
  clean _ _ := ⟨[s.current], .bump fun hs => heof (hs ▸ h), .token h⟩
  failed _ hne := absurd s.errors_bump hne

theorem consume {kinds : List TokenKind} (h : s.kind ∈ kinds) (heof : .endOfFile ∉ kinds)
    (hb : Advances b s.bump t) (hword : b.isProductive = true) :
    Advances (.sequence (.token kinds) b) s t := (bump h heof).andThen hb hword

theorem fixed {k : TokenKind} (h : s.kind = k) (hk : k.IsFixed) (hb : Advances b s.bump t)
    (hword : b.isProductive = true) : Advances (.sequence (.token [k]) b) s t :=
  consume (List.mem_singleton.mpr h) (mt List.mem_singleton.mp hk.ne_endOfFile.symm) hb hword

theorem expectAny {kinds : List TokenKind} (n : Nonterminal) (s : State) (heof : .endOfFile ∉ kinds)
    (hword : (Rule.token kinds).isProductive = true) :
    Advances (.token kinds) s (s.expectAny kinds n).state := by
  by_cases h : s.kind ∈ kinds
  · obtain ⟨-, hstate⟩ := Prod.mk.inj (State.expectAny_of_mem n h)
    rw [hstate]
    exact bump h heof
  · obtain ⟨-, hstate⟩ := Prod.mk.inj (State.expectAny_of_not_mem n h)
    rw [hstate]
    exact ofFail (((State.Precedes.refl _).synchronize n kinds).eatAny kinds) hword

theorem expect (k : TokenKind) (n : Nonterminal) (s : State) (hk : k.IsFixed) :
    Advances (.token [k]) s (s.expect k n).state :=
  expectAny n s (mt List.mem_singleton.mp hk.ne_endOfFile.symm) rfl

theorem closed {k : TokenKind} (ha : Advances a s t) (n : Nonterminal) (hk : k.IsFixed) :
    Advances (.sequence a (.sequence (.token [k]) .empty)) s (t.expect k n).state :=
  ha.andThen (expect k n t hk).last rfl

end Advances

/-! ## Expressions -/

theorem mem_of_additive {k : TokenKind} {op : BinaryOp} (h : BinaryOp.additive? k = some op) :
    k ∈ [TokenKind.punct .plus, .punct .minus] := by
  obtain ⟨hop, rfl⟩ := BinaryOp.additive?_eq_some_iff.mp h
  cases op with
  | add | sub => decide
  | mul | div => exact absurd hop not_false

theorem mem_of_multiplicative {k : TokenKind} {op : BinaryOp}
    (h : BinaryOp.multiplicative? k = some op) : k ∈ [TokenKind.punct .star, .punct .slash] := by
  obtain ⟨hop, rfl⟩ := BinaryOp.multiplicative?_eq_some_iff.mp h
  cases op with
  | add | sub => exact absurd trivial hop
  | mul | div => decide

theorem mem_of_sign {k : TokenKind} {sign : Sign} (h : Sign.ofKind? k = some sign) :
    k ∈ [TokenKind.punct .plus, .punct .minus] := by
  cases Sign.ofKind?_eq_some_iff.mp h
  cases sign <;> decide

/-- The operators of one tier, each with what follows it. -/
abbrev operations (kinds : List TokenKind) (c : Construct) : Rule :=
  .many (.sequence (.token kinds) (.construct c))

theorem advances_expression_rules :
    ExpressionRules (fun s _ t => Advances (.construct .expression) s t)
      (fun s _ t => Advances (.construct .term) s t) (fun s _ t => Advances (.construct .factor) s t)
      (fun s _ t => Advances Grammar.operand s t)
      (fun _ s _ t => Advances (operations [.punct .plus, .punct .minus] .term) s t)
      (fun _ s _ t => Advances (operations [.punct .star, .punct .slash] .factor) s t) where
  sum first rest := .of_rule .expression (first.andThen rest rfl)
  sums_stop _ := .pure .none
  sums_step h right rest := (Advances.consume (mem_of_additive h) (by decide) right rfl).tick.more rest
  product first rest := .of_rule .term (first.andThen rest rfl)
  products_stop _ := .pure .none
  products_step h right rest :=
    (Advances.consume (mem_of_multiplicative h) (by decide) right rfl).tick.more rest
  signed h operand := by
    have hsigned := (Advances.consume (mem_of_sign h) (by decide) operand.last rfl).tick
    exact .of_rule .factor (hsigned.imp (Derives.sequence_imp .left))
  unsigned _ operand := operand.last.imp fun h => .construct (.sequence (.right .empty) h)
  value h := (Advances.bump h (by decide)).left.tick
  group h inner := by
    have hclosed := inner.closed (k := .punct .rparen) .factor trivial
    exact (Advances.fixed h trivial hclosed rfl).left.right.tick
  retry _ _ factor := .ofFail (((State.Precedes.refl _).synchronize _ _).trans factor.later) rfl
  error _ _ := .ofFail ((State.Precedes.refl _).synchronize _ _) rfl

theorem advances_expression (s : State) :
    Advances (.construct .expression) s (expression s).state := advances_expression_rules.run.1 s

/-! ## Names, values and tests -/

theorem advances_part_rules :
    PartRules (fun s _ t => Advances (.construct .expression) s t)
      (fun s _ t => Advances (.construct .condition) s t)
      (fun s _ t => Advances (.token [.identifier]) s t)
      (fun s _ t => Advances (.many (.sequence (.punct .comma) (.token [.identifier]))) s t)
      (fun s _ t => Advances Grammar.identifiers s t)
      (fun s _ t => Advances (.many (.sequence (.punct .comma) (.construct .expression))) s t) where
  test {s t u _ _} left := by
    intro op right
    have hop : Advances (.token TokenKind.relationalOperator) t op.state :=
      .expectAny .booleanExpr t (by decide) rfl
    exact (Advances.of_rule .condition (left.andThen (hop.andThen right.last rfl) rfl)).tick
  name _ := (Advances.expectAny _ _ (by decide) rfl).tick
  no_name _ := .expectAny _ _ (by decide) rfl
  names_stop _ := .pure .none
  names_step h first rest := (Advances.fixed h trivial first rfl).more rest
  names first rest := first.andThen rest rfl
  values_stop _ := .pure .none
  values_step h first rest := (Advances.fixed h trivial first rfl).more rest

theorem advances_identifiers (s : State) : Advances Grammar.identifiers s (identifiers s).state :=
  advances_part_rules.run_names s

/-! ## Statements -/

theorem advances_of_none {kinds : List TokenKind} {n : Nonterminal} {s : State} {r : Rule}
    (h : (s.expectAny kinds n).value = none) (hword : r.isProductive = true) :
    Advances r s (s.expectAny kinds n).state := .ofFail (State.precedes_of_none h) hword

theorem Advances.guarded {s t u : State} {opening : TokenKind} {n : Nonterminal} {rest : Rule}
    {w : State} (htest : Advances (.construct .condition) s t)
    (hbody : Advances (.many (.construct .statement)) (t.expect opening n).state u)
    (hopening : opening.IsFixed) (hrest : Advances rest u w) (hword : rest.isProductive = true) :
    Advances
      (.sequence (.construct .condition)
        (.sequence (.token [opening]) (.sequence (.many (.construct .statement)) rest))) s w := by
  refine htest.andThen ((expect opening n t hopening).andThen (hbody.andThen hrest hword) ?_) ?_
  · exact hword
  · exact hword

/-- The second block of a conditional, if it has one. -/
abbrev alternative : Rule :=
  .optional (.inOrder [.keyword .elseBranch, .many (.construct .statement)])

theorem advances_statement_rules :
    StatementRules (fun s _ t => Advances (.construct .expression) s t)
      (fun s _ t => Advances (.construct .condition) s t)
      (fun s _ t => Advances Grammar.identifiers s t)
      (fun s _ t => Advances (.many (.sequence (.punct .comma) (.construct .expression))) s t)
      (fun s _ t => Advances (.construct .statement) s t)
      (fun _ s body t => Advances (.many (.construct .statement)) s t ∧
        (body ≠ [] → Advances (.some (.construct .statement)) s t)) where
  assignment {s t _} h _ value := by
    have hequals := Advances.expect (.punct .equals) .assignment s.bump.tick trivial
    have hrest := (hequals.andThen value.last rfl).of_tick
    exact (Advances.of_rule .statement
      (Advances.consume (List.mem_singleton.mpr h) (by decide) hrest rfl).left).tick
  target {s} h hnone := by
    -- `=` is missing, so the run fails behind the name, and what the rule asks behind it is not read.
    have hequals := advances_of_none (n := .assignment) hnone
      (r := .sequence (.punct .equals) (.sequence (.construct .expression) .empty)) rfl
    exact (Advances.of_rule .statement
      (Advances.consume (List.mem_singleton.mpr h) (by decide) hequals.of_tick rfl).left).tick.tick
  loop {s t u _ _} h test body := by
    intro close
    have hclose := (Advances.expect (.keyword .endLoop) .loop u trivial).last
    exact (Advances.of_rule .statement
      (Advances.fixed h trivial (test.guarded body.1 trivial hclose rfl) rfl).left.right).tick
  conditional {s t u _ _} h test block _ := by
    -- Without `ELSE` the second block is the empty word.
    intro close
    have hclose := (Advances.expect (.keyword .endIf) .conditional u trivial).last
    have hsecond : Advances (.sequence alternative (.sequence (.keyword .endIf) .empty)) u close :=
      .andThen (.right (.pure .empty)) hclose rfl
    exact (Advances.of_rule .statement
      (Advances.fixed h trivial (test.guarded block.1 trivial hsecond rfl) rfl).left.right.right).tick
  alternative {s t u v _ _ _} h test block helse otherwise := by
    intro close
    have hclose := (Advances.expect (.keyword .endIf) .conditional v trivial).last
    have hsecond : Advances (.sequence alternative (.sequence (.keyword .endIf) .empty)) u close :=
      .andThen (.left (.fixed helse trivial otherwise.1.last rfl)) hclose rfl
    exact (Advances.of_rule .statement
      (Advances.fixed h trivial (test.guarded block.1 trivial hsecond rfl) rfl).left.right.right).tick
  input h targets :=
    (Advances.of_rule .statement
      (Advances.fixed h trivial targets.last rfl).left.right.right.right).tick
  output h first rest := by
    have hvalues := (first.andThen rest rfl).last
    exact (Advances.of_rule .statement (Advances.fixed h trivial hvalues rfl).left.right.right.right.right).tick
  stop _ := ⟨.pure .none, fun h => absurd rfl h⟩
  step _ _ first rest := ⟨first.more rest.1, fun _ => first.andThen rest.1 rfl⟩
  skip {_ s _ _} _ _ rest := by
    have hlater : (s.fail .statement).Precedes s.stepped :=
      (State.Precedes.refl _).discard.synchronize .statement []
    exact ⟨.ofFail (hlater.trans rest.1.later) rfl, fun _ => .ofFail (hlater.trans rest.1.later) rfl⟩

/-! ## Declarations -/

theorem Advances.group {s t u : State} (names : Advances Grammar.identifiers s t)
    (type : Advances (.token [.keyword .real, .keyword .integer])
      (t.expect (.keyword .as) .varDecls).state u) : Advances (.construct .group) s u.tick := by
  have hlink := expect (.keyword .as) .varDecls t trivial
  exact (of_rule .group (names.andThen (hlink.andThen type.last rfl) rfl)).tick

theorem advances_declaration_rules :
    DeclarationRules (fun s _ t => Advances Grammar.identifiers s t)
      (fun s _ t => Advances (.token [.keyword .real, .keyword .integer]) s t)
      (fun s _ t => Advances (.construct .group) s t)
      (fun s _ t => Advances (.many (.construct .group)) s t)
      (fun s _ t => Advances (.some (.construct .group)) s t) where
  real h := .bump (by rw [h]; decide) (by decide)
  integer h := .bump (by rw [h]; decide) (by decide)
  no_type {s} _ _ := .ofFail ((State.Precedes.refl _).dropName.synchronize _ _) rfl
  group names type := names.group type
  stop _ := .pure .none
  step _ first rest := first.more rest
  groups first rest := first.andThen rest rfl

/-! ## Programs -/

namespace Advances

variable {r : Rule} {s t : State}

theorem thenFail {r' : Rule} (h : Advances r s t) (n : Nonterminal)
    (hword : ∀ {u}, Derives r u → ∃ v, Derives r' (u ++ v)) : Advances r' s (t.fail n) where
  later := h.later.fail n
  clean hs herrors := by
    obtain ⟨hst, hfail⟩ := eq_of_prefix_of_prefix h.later.errors (t.errors_prefix_fail n) herrors
    obtain ⟨u, hu, -⟩ := h.clean hs hst
    -- Nothing had failed before, so this would be a new error.
    rw [State.errors_fail_of_not_recovering n (hu.not_recovering hs)] at hfail
    exact absurd (congrArg List.length hfail) (by simp)
  failed hs _ := by
    by_cases hst : t.errors = s.errors
    · obtain ⟨u, hu, hderives⟩ := h.clean hs hst
      obtain ⟨v, hv⟩ := hword hderives
      exact ⟨u, v, ⟨t, n, hu, .refl _⟩, hv⟩
    · -- The first error is an earlier one, and its word goes on as well.
      obtain ⟨u, v, ⟨m, k, hm, hfail⟩, hderives⟩ := h.failed hs hst
      obtain ⟨z, hz⟩ := hword hderives
      exact ⟨u, v ++ z, ⟨m, k, hm, hfail.fail n⟩, by rwa [← List.append_assoc]⟩

theorem filled {body : List Statement} (h : Advances (.many (.construct .statement)) s t)
    (hne : body ≠ [] → Advances (.some (.construct .statement)) s t) :
    Advances (.some (.construct .statement)) s (t.filled body) := by
  cases body with
  | nil =>
    obtain ⟨z, hz⟩ := Construct.exists_word .statement
    exact h.thenFail .statement fun hu => ⟨z, hu.some_of_many_append hz⟩
  | cons first rest => exact hne (List.cons_ne_nil first rest)

theorem ended (h : Advances r s t) : Advances r s t.ended := by
  refine State.ended_rule (P := Advances r s) h (h.thenFail .program fun hu => ⟨[], ?_⟩)
  rwa [List.append_nil]

end Advances

theorem advances_declarations (s : State) :
    Advances (.some (.construct .group)) s (declarations s).state :=
  advances_declaration_rules.run advances_identifiers s

theorem advances_parse (tokens : List Token) :
    Advances (.construct .program) (.ofTokens tokens) (parse tokens).final := by
  refine parse_rule (fun s _ t => Advances (.some (.construct .group)) s t)
    (fun s body t => Advances (.many (.construct .statement)) s t ∧
      (body ≠ [] → Advances (.some (.construct .statement)) s t))
    (fun s _ t => Advances (.construct .program) s t) advances_declarations
    (advances_statement_rules.run advances_expression
      (advances_part_rules.run_test advances_expression) advances_identifiers
      (advances_part_rules.run_moreValues advances_expression) _) ?_ tokens
  intro s t u _ body name groups block
  have hfilled := block.1.filled block.2
  have hclose := (hfilled.closed (k := .keyword .endProgram) .program trivial)
  have hmiddle := (Advances.expect (.keyword .inBody) .program t trivial).andThen hclose rfl
  have hwith := Advances.expect (.keyword .withDecls) .program name.state trivial
  have hname : Advances (.token [.identifier]) _ name.state :=
    .expectAny .program (s.expect (.keyword .program) .program).state (by decide) rfl
  have hbody := hname.andThen (hwith.andThen (groups.andThen hmiddle rfl) rfl) rfl
  have hprogram := Advances.expect (.keyword .program) .program s trivial
  exact (Advances.of_rule .program (hprogram.andThen hbody rfl)).ended

end PalChecker.Parser
