import PalChecker.Proofs.Parser.AlteredPrograms

/-!
# Constructs without one of their terminals

What a construct is without one of the terminals it requires, and that it is the same if a construct
inside it lacks one.
-/

namespace PalChecker.Parser

open Grammar

/-! ## What requires a terminal -/

/-- The nonterminal that reports a terminal of the construct if it is left out. -/
def required : Construct → TokenKind → Option Nonterminal
  | .program, .identifier => some .program
  | .program, .keyword .program => some .program
  | .program, .keyword .withDecls => some .program
  | .program, .keyword .inBody => some .program
  | .program, .keyword .endProgram => some .program
  | .group, .keyword .as => some .varDecls
  | .group, .keyword .real => some .type
  | .group, .keyword .integer => some .type
  | .statement, .keyword .repeatBody => some .loop
  | .statement, .keyword .endLoop => some .loop
  | .statement, .keyword .thenBranch => some .conditional
  | .statement, .keyword .endIf => some .conditional
  | .condition, .punct .less => some .booleanExpr
  | .condition, .punct .equals => some .booleanExpr
  | .condition, .punct .greater => some .booleanExpr
  | .factor, .punct .rparen => some .factor
  | _, _ => none

section

variable {P : List Diagnostic → Prop}

/-- One of the kinds is required, and its error makes `P` hold. -/
def Missing (P : List Diagnostic → Prop) (c : Construct) (kinds : List TokenKind) : Prop :=
  ∃ k ∈ kinds, ∃ n, required c k = some n ∧ Admits P n

theorem not_missing {c : Construct} {kinds : List TokenKind} (h : ∀ k ∈ kinds, required c k = none) :
    ¬Missing P c kinds := by
  rintro ⟨k, hk, n, hn, -⟩
  cases (h k hk).symm.trans hn

theorem admits_of_missing {c : Construct} {kinds : List TokenKind} {n : Nonterminal}
    (h : Missing P c kinds) (hn : ∀ k ∈ kinds, required c k = some n) : Admits P n := by
  obtain ⟨k, hk, m, hm, hP⟩ := h
  cases (hn k hk).symm.trans hm
  exact hP

/-- What the construct is without one of its terminals. -/
def Altered (P : List Diagnostic → Prop) : Construct → List Token → Prop
  | .program, w => ∀ {s : State} {x : Token} {rest : List Token}, x.kind = .endOfFile →
    s.Sees (w.map Token.essence ++ x :: rest) → (programFrom s).2.Faulted P (x :: rest)
  | .group, w => FaultsGroup P (w.map Token.essence)
  | .statement, w => AlteredStatement P (w.map Token.essence)
  | .condition, w => FaultsTest P w
  | .expression, w => Admits P .factor ∧ Construct.expression.Unclosed w
  | .term, w => Admits P .factor ∧ Construct.term.Unclosed w
  | .factor, w => Admits P .factor ∧ Construct.factor.Unclosed w

/-! ## Expressions and tests -/

theorem altered_factor {w : List Token}
    (h : Construct.factor.rule.Altered (Missing P) (Altered P) .factor w) : Altered P .factor w := by
  obtain ⟨sign, _, rfl, ⟨hsign, -⟩ | ⟨hsign, h⟩⟩ := h
  · rcases hsign with ⟨hmissing, -⟩ | hfalse
    · exact absurd hmissing (not_missing (by decide))
    · exact hfalse.elim
  · have hsign := Rule.Reads.derives (r := .optional (.token [.punct .plus, .punct .minus])) hsign
    rcases altered_last h with ⟨hmissing, -⟩ | h | ⟨⟨k, hk, -⟩, -⟩
    · exact absurd hmissing (not_missing (by decide))
    · obtain ⟨_, _, rfl, ⟨hmissing, -⟩ | ⟨⟨opening, hopening, rfl⟩, inner, _, rfl,
        ⟨hinner, hclosing⟩ | ⟨hinner, h⟩⟩⟩ := h
      · exact absurd hmissing.1 (not_missing (by decide))
      · obtain ⟨_, _, ⟨closing, hclosing, rfl⟩, rfl, rfl⟩ := hclosing
        exact ⟨hinner.1, unclosed_factor_of_inner hsign (List.mem_singleton.mp hopening)
          (List.mem_singleton.mp hclosing) hinner.2⟩
      · obtain ⟨hmissing, rfl⟩ := altered_last h
        rw [List.append_nil]
        exact ⟨admits_of_missing hmissing (by decide),
          unclosed_factor hsign (List.mem_singleton.mp hopening) (Construct.Reads.derives hinner)⟩
    · exact absurd hk List.not_mem_nil

theorem altered_term {w : List Token}
    (h : Construct.term.rule.Altered (Missing P) (Altered P) .term w) : Altered P .term w := by
  obtain ⟨u, ⟨hP, hu⟩, hclosed⟩ := exists_altered_operand rfl (not_missing (by decide))
    (fun _ _ he hv => he.expression_append_factors hv) h
  exact ⟨hP, hclosed hu⟩

theorem altered_expression {w : List Token}
    (h : Construct.expression.rule.Altered (Missing P) (Altered P) .expression w) :
    Altered P .expression w := by
  obtain ⟨u, ⟨hP, hu⟩, hclosed⟩ := exists_altered_operand rfl (not_missing (by decide))
    (fun _ _ he hv => he.expression_append_terms hv) h
  exact ⟨hP, hclosed hu⟩

theorem altered_condition {w : List Token}
    (h : Construct.condition.rule.Altered (Missing P) (Altered P) .condition w) :
    Altered P .condition w := by
  obtain ⟨u, _, rfl, ⟨⟨hP, hu⟩, hrest⟩ | ⟨hu, h⟩⟩ := h
  · obtain ⟨_, _, ⟨op, hop, rfl⟩, ⟨v, _, hv, rfl, rfl⟩, rfl⟩ := hrest
    rw [List.append_nil]
    exact faultsTest_left hP hu hop hv
  obtain ⟨_, _, rfl, ⟨⟨hmissing, rfl⟩, hv⟩ | ⟨⟨op, hop, rfl⟩, h⟩⟩ := h
  · obtain ⟨v, _, hv, rfl, rfl⟩ := hv
    rw [List.append_nil, List.nil_append]
    exact faultsTest_operator (admits_of_missing hmissing (by decide)) hu hv
  · obtain ⟨hP, hv⟩ := altered_last h
    exact faultsTest_right hP hu hop hv

/-! ## Statements -/

theorem altered_block {own : Construct} {w : List Token}
    (h : (Rule.many (.construct .statement)).Altered (Missing P) (Altered P) own w) :
    AlteredBlock P (w.map Token.essence) := by
  obtain ⟨before, u, after, rfl, hbefore, hu, hafter⟩ := h
  obtain ⟨first, hfirst, hspelling⟩ := exists_block ⟨before, hbefore, rfl⟩
  obtain ⟨last, hlast, hspelling'⟩ := exists_block ⟨after, hafter, rfl⟩
  rw [List.map_append, List.map_append, ← hspelling, ← hspelling']
  exact AlteredStatement.block hu hfirst hlast

theorem altered_assignment {w : List Token}
    (h : Grammar.assignment.Altered (Missing P) (Altered P) .statement w) : Altered P .statement w := by
  obtain ⟨_, v, rfl, ⟨hmissing, -⟩ | ⟨⟨target, htarget, rfl⟩, h⟩⟩ := h
  · exact absurd hmissing.1 (not_missing (by decide))
  have htarget := List.mem_singleton.mp htarget
  have hessence : target.essence = target := Ident.IsName.essence (i := ⟨.blank, target⟩) htarget
  obtain ⟨u, hv, h⟩ := altered_fixed (k := .punct .equals) trivial (not_missing (by decide)) h
  obtain ⟨hP, hu⟩ := altered_last h
  have hcontained := contained_assignment hP htarget hu
  rw [← hv] at hcontained
  refine .inl ?_
  rw [List.map_append, List.map_singleton, List.singleton_append, hessence]
  exact hcontained

theorem exists_loop_rest {v : List Token}
    (h : (Rule.sequence (.many (.construct .statement)) (.sequence (.keyword .endLoop) .empty)).Reads
      Construct.Reads v) :
    ∃ body : List Statement, (∀ st ∈ body, st.Canonical) ∧
      v.map Token.essence = Statement.spellings body ++ [.fixed (.keyword .endLoop)] := by
  obtain ⟨u, _, hu, ⟨_, _, hclose, rfl, rfl⟩, rfl⟩ := h
  obtain ⟨body, hbody, hspelling⟩ := exists_block hu
  have hclose := (reads_fixed_iff (k := .keyword .endLoop) trivial).mp hclose
  refine ⟨body, hbody, ?_⟩
  rw [List.append_nil, List.map_append, hclose, hspelling]

theorem altered_loop {w : List Token}
    (h : Grammar.loop.Altered (Missing P) (Altered P) .statement w) : Altered P .statement w := by
  obtain ⟨v, hw, h⟩ := altered_fixed (k := .keyword .untilCond) trivial (not_missing (by decide)) h
  change AlteredStatement P (w.map Token.essence)
  rw [hw]
  obtain ⟨u, _, rfl, ⟨htest, hrest⟩ | ⟨⟨test, htest, hspelling⟩, h⟩⟩ := h
  · -- The condition is altered.
    obtain ⟨_, rest, hopen, hrest, rfl⟩ := hrest
    obtain ⟨body, hbody, hv⟩ := exists_loop_rest hrest
    have hopen := (reads_fixed_iff (k := .keyword .repeatBody) trivial).mp hopen
    rw [List.map_append, List.map_append, hopen, hv, List.singleton_append]
    exact .inl (contained_loop_of_test htest hbody)
  rw [List.map_append, ← hspelling]
  obtain ⟨_, rest, rfl, ⟨⟨hmissing, rfl⟩, hrest⟩ | ⟨hopen, h⟩⟩ := h
  · -- `REPEAT` is missing.
    obtain ⟨body, hbody, hv⟩ := exists_loop_rest hrest
    rw [List.nil_append, hv]
    exact .inl (contained_loop_of_repeat (admits_of_missing hmissing (by decide)) htest hbody)
  have hopen := (reads_fixed_iff (k := .keyword .repeatBody) trivial).mp hopen
  rw [List.map_append, hopen, List.singleton_append]
  obtain ⟨body, _, rfl, ⟨hbody, hclose⟩ | ⟨hbody, h⟩⟩ := h
  · -- The body is altered.
    obtain ⟨_, _, hclose, rfl, rfl⟩ := hclose
    have hclose := (reads_fixed_iff (k := .keyword .endLoop) trivial).mp hclose
    rw [List.append_nil, List.map_append, hclose]
    exact altered_loop_of_body htest (altered_block hbody)
  · -- `ENDLOOP` is missing.
    obtain ⟨hmissing, rfl⟩ := altered_last h
    obtain ⟨block, hblock, hv⟩ := exists_block hbody
    rw [List.append_nil, ← hv]
    exact .inr ⟨.loop, _, admits_of_missing hmissing (by decide), .loop htest hblock⟩

/-- What stands behind the first block of a conditional. -/
def conditionalEnd : Rule :=
  .sequence (.optional (Rule.inOrder [.keyword .elseBranch, .many (.construct .statement)]))
    (.sequence (.keyword .endIf) .empty)

theorem exists_else {v : List Token}
    (h : (Rule.optional (Rule.inOrder [.keyword .elseBranch, .many (.construct .statement)])).Reads
      Construct.Reads v) :
    ∃ otherwise : Option (List Statement), (∀ block ∈ otherwise, ∀ st ∈ block, st.Canonical) ∧
      v.map Token.essence = elseSpelling otherwise := by
  rcases h with ⟨_, _, helse, ⟨u, _, hu, rfl, rfl⟩, rfl⟩ | rfl
  · obtain ⟨block, hblock, hspelling⟩ := exists_block hu
    have helse := (reads_fixed_iff (k := .keyword .elseBranch) trivial).mp helse
    refine ⟨some block, fun _ h => ?_, ?_⟩
    · cases h
      exact hblock
    · rw [List.append_nil, List.map_append, helse, ← hspelling]
      rfl
  · exact ⟨none, fun _ h => (by cases h), rfl⟩

theorem exists_conditional_end {v : List Token} (h : conditionalEnd.Reads Construct.Reads v) :
    ∃ otherwise : Option (List Statement), (∀ block ∈ otherwise, ∀ st ∈ block, st.Canonical) ∧
      v.map Token.essence = elseSpelling otherwise ++ [.fixed (.keyword .endIf)] := by
  obtain ⟨u, _, hu, ⟨_, _, hclose, rfl, rfl⟩, rfl⟩ := h
  obtain ⟨otherwise, hotherwise, hspelling⟩ := exists_else hu
  have hclose := (reads_fixed_iff (k := .keyword .endIf) trivial).mp hclose
  refine ⟨otherwise, hotherwise, ?_⟩
  rw [List.append_nil, List.map_append, hclose, hspelling]

theorem altered_conditional_end {test : Condition} {whenTrue : List Statement} {v : List Token}
    (htest : test.Canonical) (hblock : ∀ st ∈ whenTrue, st.Canonical)
    (h : conditionalEnd.Altered (Missing P) (Altered P) .statement v) :
    AlteredStatement P (.fixed (.keyword .ifCond) :: (test.spelling ++ .fixed (.keyword .thenBranch) ::
      (Statement.spellings whenTrue ++ v.map Token.essence))) := by
  obtain ⟨_, _, rfl, ⟨h, hclose⟩ | ⟨hu, h⟩⟩ := h
  · obtain ⟨_, _, hclose, rfl, rfl⟩ := hclose
    have hclose := (reads_fixed_iff (k := .keyword .endIf) trivial).mp hclose
    -- The second block is altered, since there is nothing to alter where it is left out.
    rcases h with h | hfalse
    · obtain ⟨u, hu, h⟩ := altered_fixed (k := .keyword .elseBranch) trivial (not_missing (by decide)) h
      rw [List.append_nil, List.map_append, hclose, hu]
      exact altered_alternative_of_otherwise htest hblock (altered_block (altered_last h))
    · exact hfalse.elim
  · obtain ⟨otherwise, hotherwise, hspelling⟩ := exists_else hu
    obtain ⟨hmissing, rfl⟩ := altered_last h
    have hP : Admits P .conditional := admits_of_missing hmissing (by decide)
    rw [List.append_nil, hspelling]
    cases otherwise with
    | none =>
      rw [elseSpelling, List.append_nil]
      exact .inr ⟨.conditional, _, hP, .thenBlock htest hblock⟩
    | some block => exact .inr ⟨.conditional, _, hP, .elseBlock htest hblock (hotherwise block rfl)⟩

theorem altered_conditional {w : List Token}
    (h : Grammar.conditional.Altered (Missing P) (Altered P) .statement w) : Altered P .statement w := by
  obtain ⟨v, hw, h⟩ := altered_fixed (k := .keyword .ifCond) trivial (not_missing (by decide)) h
  change AlteredStatement P (w.map Token.essence)
  rw [hw]
  obtain ⟨u, _, rfl, ⟨htest, hrest⟩ | ⟨⟨test, htest, hspelling⟩, h⟩⟩ := h
  · -- The condition is the part that is altered.
    obtain ⟨_, _, hopen, ⟨body, rest, hbody, hrest, rfl⟩, rfl⟩ := hrest
    obtain ⟨block, hblock, hv⟩ := exists_block hbody
    obtain ⟨otherwise, hotherwise, hv'⟩ := exists_conditional_end hrest
    have hopen := (reads_fixed_iff (k := .keyword .thenBranch) trivial).mp hopen
    simp only [List.map_append, hopen, ← hv, hv', List.singleton_append]
    exact .inl (contained_conditional_of_test htest hblock hotherwise)
  rw [List.map_append, ← hspelling]
  obtain ⟨_, _, rfl, ⟨⟨hmissing, rfl⟩, hrest⟩ | ⟨hopen, h⟩⟩ := h
  · -- `THEN` is missing.
    obtain ⟨body, rest, hbody, hrest, rfl⟩ := hrest
    obtain ⟨block, hblock, hv⟩ := exists_block hbody
    obtain ⟨otherwise, hotherwise, hv'⟩ := exists_conditional_end hrest
    rw [List.nil_append, List.map_append, ← hv, hv']
    exact .inl (contained_conditional_of_then (admits_of_missing hmissing (by decide)) htest hblock
      hotherwise)
  have hopen := (reads_fixed_iff (k := .keyword .thenBranch) trivial).mp hopen
  rw [List.map_append, hopen, List.singleton_append]
  obtain ⟨body, rest, rfl, ⟨hbody, hrest⟩ | ⟨hbody, h⟩⟩ := h
  · -- The first block is altered.
    obtain ⟨otherwise, hotherwise, hv'⟩ := exists_conditional_end hrest
    rw [List.map_append, hv']
    cases otherwise with
    | none => exact altered_conditional_of_block htest (altered_block hbody)
    | some block =>
      exact altered_alternative_of_block htest (altered_block hbody) (hotherwise block rfl)
  · obtain ⟨block, hblock, hv⟩ := exists_block hbody
    rw [List.map_append, ← hv]
    exact altered_conditional_end htest hblock h

theorem not_altered_identifiers {own : Construct} {w : List Token}
    (hname : required own .identifier = none) (hcomma : required own (.punct .comma) = none) :
    ¬Grammar.identifiers.Altered (Missing P) (Altered P) own w := by
  have hname : ¬Missing P own [.identifier] := not_missing (List.forall_mem_singleton.mpr hname)
  have hcomma : ¬Missing P own [.punct .comma] := not_missing (List.forall_mem_singleton.mpr hcomma)
  rintro ⟨_, _, rfl, ⟨hmissing, -⟩ | ⟨-, h⟩⟩
  · exact hname hmissing.1
  · obtain ⟨_, _, _, rfl, -, ⟨_, _, rfl, ⟨hmissing, -⟩ | ⟨-, hmissing⟩⟩, -⟩ := h
    · exact hcomma hmissing.1
    · exact hname hmissing.1

theorem altered_input {w : List Token} (h : Grammar.input.Altered (Missing P) (Altered P) .statement w) :
    Altered P .statement w := by
  obtain ⟨v, -, h⟩ := altered_fixed (k := .keyword .input) trivial (not_missing (by decide)) h
  exact absurd (altered_last h) (not_altered_identifiers rfl rfl)

theorem altered_output {w : List Token} (h : Grammar.output.Altered (Missing P) (Altered P) .statement w) :
    Altered P .statement w := by
  have hexpression : ∀ u, (Rule.construct .expression).Reads Construct.Reads u →
      ∃ e, Spelled Expr.Canonical Expr.spelling e u := fun _ h => h
  obtain ⟨v, hw, h⟩ := altered_fixed (k := .keyword .output) trivial (not_missing (by decide)) h
  change AlteredStatement P (w.map Token.essence)
  rw [hw]
  obtain ⟨first, _, rfl, ⟨⟨hP, hfirst⟩, ⟨parts, hparts, rfl⟩⟩ | ⟨⟨e, he, hspelling⟩, h⟩⟩ := altered_last h
  · obtain ⟨values, hvalues, hrest⟩ := exists_trees_after_commas hparts hexpression
    rw [List.map_append, ← hrest]
    exact .inl (contained_output_first hP hfirst hvalues)
  · obtain ⟨before, _, after, rfl, hbefore, hu, hafter⟩ := h
    obtain ⟨u, hcomma, hP, hu⟩ := altered_fixed (k := .punct .comma) trivial (not_missing (by decide)) hu
    obtain ⟨values, hvalues, hfirst⟩ := exists_trees_after_commas hbefore hexpression
    obtain ⟨values', hvalues', hlast⟩ := exists_trees_after_commas hafter hexpression
    simp only [List.map_append, hcomma, ← hspelling, ← hfirst, ← hlast, List.cons_append]
    exact .inl (contained_output_later hP he hu hvalues hvalues')

theorem altered_statement {w : List Token}
    (h : Construct.statement.rule.Altered (Missing P) (Altered P) .statement w) :
    Altered P .statement w := by
  rcases h with h | h | h | h | h | ⟨⟨k, hk, -⟩, -⟩
  · exact altered_assignment h
  · exact altered_loop h
  · exact altered_conditional h
  · exact altered_input h
  · exact altered_output h
  · exact absurd hk List.not_mem_nil

/-! ## Groups -/

theorem altered_group {w : List Token}
    (h : Construct.group.rule.Altered (Missing P) (Altered P) .group w) : Altered P .group w := by
  obtain ⟨u, _, rfl, ⟨h, -⟩ | ⟨hu, h⟩⟩ := h
  · exact absurd h (not_altered_identifiers rfl rfl)
  change FaultsGroup P _
  obtain ⟨idents, hne, hnames, hspelling⟩ := exists_idents hu
  rw [List.map_append, ← hspelling]
  obtain ⟨_, _, rfl, ⟨⟨hmissing, rfl⟩, htype⟩ | ⟨hlink, h⟩⟩ := h
  · obtain ⟨_, _, ⟨t, ht, rfl⟩, rfl, rfl⟩ := htype
    have htype : ∃ type : DeclType, type.kind = t.kind := by
      rcases List.mem_cons.mp ht with ht | ht
      · exact ⟨.real, ht.symm⟩
      · exact ⟨.integer, (List.mem_singleton.mp ht).symm⟩
    obtain ⟨type, htype⟩ := htype
    rw [List.nil_append, List.append_nil, List.map_singleton,
      Token.essence_of_fixed type.isFixed_kind htype.symm]
    exact faultsGroup_of_as (admits_of_missing hmissing (by decide)) hne hnames
  · obtain ⟨hmissing, rfl⟩ := altered_last h
    have hlink := (reads_fixed_iff (k := .keyword .as) trivial).mp hlink
    rw [List.append_nil, hlink]
    exact faultsGroup_of_type (admits_of_missing hmissing (by decide)) hne hnames

theorem exists_groups {u : List Token} (h : (Rule.many (.construct .group)).Reads Construct.Reads u) :
    ∃ groups : List Declaration, (∀ d ∈ groups, d.Canonical) ∧
      groups.flatMap Declaration.spelling = u.map Token.essence := by
  obtain ⟨parts, hparts, rfl⟩ := h
  obtain ⟨groups, hgroups, hmap⟩ := exists_trees hparts
  refine ⟨groups, hgroups, ?_⟩
  rw [List.map_flatten, ← hmap, List.flatMap_def]

theorem faulted_declarations {s : State} {rest w : List Token}
    (h : (Rule.some (.construct .group)).Altered (Missing P) (Altered P) .program w)
    (hs : s.Sees (w.map Token.essence ++ .fixed (.keyword .inBody) :: rest)) :
    (declarations s).state.Faulted P (.fixed (.keyword .inBody) :: rest) := by
  rw [(Prod.mk.inj (declarations_result s)).2]
  obtain ⟨first, _, rfl, ⟨⟨-, hfaults⟩, hrest⟩ | ⟨⟨d, hd, hspelling⟩, h⟩⟩ := h
  · obtain ⟨after, hafter, hspelling⟩ := exists_groups hrest
    rw [List.map_append, ← hspelling, List.append_assoc] at hs
    obtain ⟨left, hleft, hfault⟩ := hfaults hafter hs
    exact hfault.moreDeclarations hleft (by decide)
  · obtain ⟨before, u, after, rfl, hbefore, hu, hafter⟩ := h
    obtain ⟨groups, hgroups, hspelled⟩ := exists_groups ⟨before, hbefore, rfl⟩
    obtain ⟨groups', hgroups', hspelled'⟩ := exists_groups ⟨after, hafter, rfl⟩
    simp only [List.map_append, ← hspelling, ← hspelled, ← hspelled', List.append_assoc] at hs
    exact faulted_moreDeclarations hu hgroups hgroups' (rereads_declaration hd hs).2

/-! ## Programs -/

/-- The last section of a program. -/
def bodyRule : Rule :=
  .sequence (.some (.construct .statement)) (.sequence (.keyword .endProgram) .empty)

def groupsRule : Rule :=
  .sequence (.some (.construct .group)) (.sequence (.keyword .inBody) bodyRule)

theorem exists_body {v : List Token} (h : bodyRule.Reads Construct.Reads v) :
    ∃ body : List Statement, body ≠ [] ∧ (∀ st ∈ body, st.Canonical) ∧
      v.map Token.essence = Statement.spellings body ++ [.fixed (.keyword .endProgram)] := by
  obtain ⟨u, _, hu, ⟨_, _, hend, rfl, rfl⟩, rfl⟩ := h
  obtain ⟨body, hne, hbody, hspelling⟩ := exists_some_trees hu fun _ h => h
  have hend := (reads_fixed_iff (k := .keyword .endProgram) trivial).mp hend
  refine ⟨body, hne, hbody, ?_⟩
  rw [List.append_nil, List.map_append, hend, Statement.spellings_eq_flatMap, hspelling]

theorem exists_groups_body {v : List Token} (h : groupsRule.Reads Construct.Reads v) :
    ∃ (groups : List Declaration) (body : List Statement),
      (groups ≠ [] ∧ ∀ d ∈ groups, d.Canonical) ∧ (body ≠ [] ∧ ∀ st ∈ body, st.Canonical) ∧
        v.map Token.essence = groups.flatMap Declaration.spelling ++ .fixed (.keyword .inBody) ::
          (Statement.spellings body ++ [.fixed (.keyword .endProgram)]) := by
  obtain ⟨u, _, hu, ⟨_, w, hin, hw, rfl⟩, rfl⟩ := h
  obtain ⟨groups, hne, hgroups, hspelling⟩ := exists_some_trees hu fun _ h => h
  obtain ⟨body, hbody_ne, hbody, hv⟩ := exists_body hw
  have hin := (reads_fixed_iff (k := .keyword .inBody) trivial).mp hin
  refine ⟨groups, body, ⟨hne, hgroups⟩, ⟨hbody_ne, hbody⟩, ?_⟩
  simp only [List.map_append, hspelling, hin, hv, List.cons_append, List.nil_append]

theorem alteredBlock_of_some {w : List Token}
    (h : (Rule.some (.construct .statement)).Altered (Missing P) (Altered P) .program w) :
    AlteredBlock P (w.map Token.essence) := by
  obtain ⟨first, _, rfl, ⟨hfirst, hrest⟩ | ⟨⟨st, hst, hspelling⟩, before, u, after, rfl, hbefore, hu,
    hafter⟩⟩ := h
  · obtain ⟨body, hbody, hspelling⟩ := exists_block hrest
    rw [List.map_append, ← hspelling]
    have hnone : ∀ st ∈ ([] : List Statement), st.Canonical := fun _ h => absurd h List.not_mem_nil
    exact AlteredStatement.block hfirst hnone hbody
  · obtain ⟨body, hbody, hspelled⟩ := exists_block ⟨before, hbefore, rfl⟩
    obtain ⟨body', hbody', hspelled'⟩ := exists_block ⟨after, hafter, rfl⟩
    have hbody : ∀ s ∈ st :: body, s.Canonical := List.forall_mem_cons.mpr ⟨hst, hbody⟩
    have hblock := AlteredStatement.block hu hbody hbody'
    rw [Statement.spellings, List.append_assoc] at hblock
    simpa only [List.map_append, ← hspelling, ← hspelled, ← hspelled'] using hblock

theorem not_mem_closers {n : Nonterminal} {closers : List TokenKind} {w : List Token}
    (h : Opened n closers w) : .keyword .endProgram ∉ closers := by
  cases h <;> decide

theorem exists_cons_behind_groups {v : List Token} (x : Token) (rest : List Token)
    (h : (Rule.sequence (.keyword .inBody) bodyRule).Altered (Missing P) (Altered P) .program v) :
    ∃ y more, v.map Token.essence ++ x :: rest = y :: more ∧
      (y.kind = .identifier → ∃ z behind, more = z :: behind ∧ z.kind = .punct .equals) := by
  obtain ⟨_, v, rfl, ⟨⟨-, rfl⟩, hv⟩ | ⟨hin, -⟩⟩ := h
  · obtain ⟨body, hne, hbody, hspelling⟩ := exists_body hv
    obtain ⟨first, body, rfl⟩ := List.exists_cons_of_ne_nil hne
    rw [List.nil_append, hspelling, Statement.spellings]
    cases (List.forall_mem_cons.mp hbody).1 with
    | assignment => exact ⟨_, _, rfl, fun _ => ⟨_, _, rfl, rfl⟩⟩
    | loop | conditional | alternative | input | output =>
      exact ⟨_, _, rfl, fun h => absurd h (by decide)⟩
  · have hin := (reads_fixed_iff (k := .keyword .inBody) trivial).mp hin
    rw [List.map_append, hin]
    exact ⟨_, _, rfl, fun h => absurd h (by decide)⟩

section

variable {s : State} {x : Token} {rest : List Token} (hx : x.kind = .endOfFile)

include hx

theorem faulted_blockFrom {v : List Token} (h : bodyRule.Altered (Missing P) (Altered P) .program v)
    (hs : s.Sees (v.map Token.essence ++ x :: rest)) : (blockFrom s).Faulted P (x :: rest) := by
  obtain ⟨u, _, rfl, ⟨hu, hend⟩ | ⟨hu, h⟩⟩ := h
  · -- The block is altered, and the end of the program is there.
    obtain ⟨_, _, hend, rfl, rfl⟩ := hend
    have hend := (reads_fixed_iff (k := .keyword .endProgram) trivial).mp hend
    simp only [List.map_append, hend, List.append_nil, List.append_assoc, List.cons_append,
      List.nil_append] at hs
    have hblock := alteredBlock_of_some hu
    rcases hblock.faults_or_opened (k := .keyword .endProgram) (by decide) with
      hfaults | ⟨_, _, _, _, _, _, _, hopened, hclose⟩
    · have hstart : s.kind ∈ TokenKind.statementStart := by
        obtain ⟨y, w, hw, hy⟩ := hblock.startsStatement
        rw [hw] at hs
        exact hs.kind ▸ hy
      refine faulted_endFrom (statements_value_ne_nil (by decide) hstart) hx ?_
      exact hfaults _ (by decide) rfl (by decide) hs
    · exact absurd hclose (not_mem_closers hopened)
  · -- The end of the program is missing.
    obtain ⟨hmissing, rfl⟩ := altered_last h
    obtain ⟨body, hne, hbody, hspelling⟩ := exists_some_trees hu fun _ h => h
    rw [List.append_nil, ← hspelling, ← Statement.spellings_eq_flatMap] at hs
    obtain ⟨hvalue, hend⟩ := rereads_block [.keyword .endProgram] (by decide) hbody
      (fun st hst => rereads_statement (hbody st hst)) (hx ▸ ⟨rfl, rfl, by decide⟩) (.inl hx) hs
    have hvalue_ne : (statements [.keyword .endProgram] s).value ≠ [] := by
      intro hnil
      have hvalue : Statement.allUnstamped (statements [.keyword .endProgram] s).value = _ := hvalue
      rw [hnil] at hvalue
      exact hne (Statement.allUnstamped_eq_nil_iff.mp hvalue.symm)
    have hfault := faulted_expectAny [.keyword .endProgram]
      (admits_of_missing (n := .program) hmissing (by decide)) hend (hx ▸ (by decide)) (.inl hx)
    rw [blockFrom, endFrom_of_ne_nil hvalue_ne]
    exact hfault.ended hx

theorem faulted_bodyFrom {v : List Token}
    (h : (Rule.sequence (.keyword .inBody) bodyRule).Altered (Missing P) (Altered P) .program v)
    (hs : s.Sees (v.map Token.essence ++ x :: rest)) : (bodyFrom s).2.Faulted P (x :: rest) := by
  obtain ⟨_, v, rfl, ⟨⟨hmissing, rfl⟩, hv⟩ | ⟨hin, h⟩⟩ := h
  · obtain ⟨body, hne, hbody, hspelling⟩ := exists_body hv
    rw [List.nil_append, hspelling, List.append_assoc, List.singleton_append] at hs
    obtain ⟨y, u, hu, hy⟩ := startsStatement_of_block hne hbody
    have hfault : (s.expect (.keyword .inBody) .program).state.Faulted P
        (Statement.spellings body ++ .fixed (.keyword .endProgram) :: x :: rest) := by
      rw [hu] at hs ⊢
      exact faulted_expectAny _ (admits_of_missing (n := .program) hmissing (by decide)) hs
        ((by decide : ∀ k ∈ TokenKind.statementStart, k ∉ [TokenKind.keyword .inBody]) _ hy)
        (.inr ((by decide : ∀ k ∈ TokenKind.statementStart, k ∈ Nonterminal.program.syncSet) _ hy))
    exact hfault.blockFrom hx hne hbody
  · have hin := (reads_fixed_iff (k := .keyword .inBody) trivial).mp hin
    rw [List.map_append, hin, List.append_assoc, List.singleton_append] at hs
    exact faulted_blockFrom hx h (sees_expect .program hs trivial).2

theorem faulted_groupsFrom {v : List Token} (h : groupsRule.Altered (Missing P) (Altered P) .program v)
    (hs : s.Sees (v.map Token.essence ++ x :: rest)) : (groupsFrom s).Faulted P (x :: rest) := by
  obtain ⟨u, _, rfl, ⟨hu, hrest⟩ | ⟨hu, h⟩⟩ := h
  · obtain ⟨_, v, hin, hv, rfl⟩ := hrest
    obtain ⟨body, hne, hbody, hspelling⟩ := exists_body hv
    have hin := (reads_fixed_iff (k := .keyword .inBody) trivial).mp hin
    simp only [List.map_append, hin, hspelling, List.append_assoc, List.cons_append, List.nil_append]
      at hs
    exact (faulted_declarations hu hs).bodyFrom hx hne hbody
  · obtain ⟨groups, hne, hgroups, hspelling⟩ := exists_some_trees hu fun _ h => h
    obtain ⟨y, more, hy, hname⟩ := exists_cons_behind_groups x rest h
    rw [List.map_append, ← hspelling, List.append_assoc, hy] at hs
    have hread := (rereads_declarations hne hgroups hname hs).2
    rw [← hy] at hread
    exact faulted_bodyFrom hx h hread

theorem faulted_withFrom {v : List Token}
    (h : (Rule.sequence (.keyword .withDecls) groupsRule).Altered (Missing P) (Altered P) .program v)
    (hs : s.Sees (v.map Token.essence ++ x :: rest)) : (withFrom s).Faulted P (x :: rest) := by
  obtain ⟨_, v, rfl, ⟨⟨hmissing, rfl⟩, hv⟩ | ⟨hwith, h⟩⟩ := h
  · obtain ⟨groups, body, ⟨hne, hgroups⟩, ⟨hbody_ne, hbody⟩, hspelling⟩ := exists_groups_body hv
    rw [List.nil_append, hspelling] at hs
    simp only [List.append_assoc, List.cons_append, List.nil_append] at hs
    have hfault : (s.expect (.keyword .withDecls) .program).state.Faulted P
        (groups.flatMap Declaration.spelling ++ .fixed (.keyword .inBody) ::
          (Statement.spellings body ++ .fixed (.keyword .endProgram) :: x :: rest)) := by
      obtain ⟨d, groups, rfl⟩ := List.exists_cons_of_ne_nil hne
      obtain ⟨y, z, more, hd, hy, -⟩ := exists_cons_cons_of_canonical (List.forall_mem_cons.mp hgroups).1
      rw [List.flatMap_cons, hd] at hs ⊢
      exact faulted_expectAny _ (admits_of_missing (n := .program) hmissing (by decide)) hs
        (by rw [hy]; decide) (.inr (by rw [hy]; decide))
    exact hfault.groupsFrom hx hne hgroups hbody_ne hbody
  · have hwith := (reads_fixed_iff (k := .keyword .withDecls) trivial).mp hwith
    rw [List.map_append, hwith, List.append_assoc, List.singleton_append] at hs
    exact faulted_groupsFrom hx h (sees_expect .program hs trivial).2

theorem faulted_nameFrom {v : List Token}
    (h : (Rule.sequence (.token [.identifier]) (.sequence (.keyword .withDecls) groupsRule)).Altered
      (Missing P) (Altered P) .program v)
    (hs : s.Sees (v.map Token.essence ++ x :: rest)) : (nameFrom s).Faulted P (x :: rest) := by
  obtain ⟨_, v, rfl, ⟨⟨hmissing, rfl⟩, hv⟩ | ⟨⟨name, hname, rfl⟩, h⟩⟩ := h
  · obtain ⟨_, v, hwith, hv, rfl⟩ := hv
    obtain ⟨groups, body, ⟨hne, hgroups⟩, ⟨hbody_ne, hbody⟩, hspelling⟩ := exists_groups_body hv
    have hwith := (reads_fixed_iff (k := .keyword .withDecls) trivial).mp hwith
    simp only [List.map_append, hwith, hspelling, List.append_assoc, List.cons_append, List.nil_append]
      at hs
    have hfault := faulted_expectAny [.identifier]
      (admits_of_missing (n := .program) hmissing (by decide)) hs (by decide) (.inr (by decide))
    exact hfault.withFrom hx hne hgroups hbody_ne hbody
  · have hkind : name.essence.kind ∈ [TokenKind.identifier] := by rwa [Token.essence_kind]
    exact faulted_withFrom hx h (sees_expectAny [.identifier] .program hs hkind (by decide)).2

end

theorem altered_program {w : List Token}
    (h : Construct.program.rule.Altered (Missing P) (Altered P) .program w) : Altered P .program w := by
  intro s x rest hx hs
  change (nameFrom (s.expect (.keyword .program) .program).state).Faulted P (x :: rest)
  obtain ⟨_, v, rfl, ⟨⟨hmissing, rfl⟩, hv⟩ | ⟨hprogram, h⟩⟩ := h
  · obtain ⟨_, _, ⟨name, hname, rfl⟩, ⟨_, v, hwith, hv, rfl⟩, rfl⟩ := hv
    obtain ⟨groups, body, ⟨hne, hgroups⟩, ⟨hbody_ne, hbody⟩, hspelling⟩ := exists_groups_body hv
    have hname := List.mem_singleton.mp hname
    have hessence : name.essence = name := Ident.IsName.essence (i := ⟨.blank, name⟩) hname
    have hwith := (reads_fixed_iff (k := .keyword .withDecls) trivial).mp hwith
    simp only [List.map_append, List.map_cons, hessence, hwith, hspelling, List.append_assoc,
      List.cons_append, List.nil_append] at hs
    -- The keyword is missed at the name, with which reading resumes.
    have hfault := faulted_expectAny [.keyword .program]
      (admits_of_missing (n := .program) hmissing (by decide)) hs (by rw [hname]; decide)
      (.inr (by rw [hname]; decide))
    exact hfault.nameFrom hx hname hne hgroups hbody_ne hbody
  · have hprogram := (reads_fixed_iff (k := .keyword .program) trivial).mp hprogram
    rw [List.map_append, hprogram, List.append_assoc, List.singleton_append] at hs
    exact faulted_nameFrom hx h (sees_expect .program hs trivial).2

theorem altered_rule (c : Construct) (w : List Token)
    (h : c.rule.Altered (Missing P) (Altered P) c w) : Altered P c w := by
  cases c with
  | program => exact altered_program h
  | group => exact altered_group h
  | statement => exact altered_statement h
  | condition => exact altered_condition h
  | expression => exact altered_expression h
  | term => exact altered_term h
  | factor => exact altered_factor h

end

end PalChecker.Parser
