import PalChecker.Proofs.Syntax.Derivations

/-!
# Derived words are spelled by canonical trees

A derivation forgets the tokens, so a rule is first said of tokens, with any meaning given to the
constructs. Given what each construct is to read, a tree is built for each rule.
-/

namespace PalChecker.Grammar

/-! ## Rules over tokens -/

/-- The rule reads the tokens, if `reads` says what constructs read. -/
def Rule.Reads (reads : Construct → List Token → Prop) : Rule → List Token → Prop
  | token kinds, u => ∃ t, t.kind ∈ kinds ∧ u = [t]
  | empty, u => u = []
  | sequence first second, w => ∃ u v, first.Reads reads u ∧ second.Reads reads v ∧ w = u ++ v
  | either left right, u => left.Reads reads u ∨ right.Reads reads u
  | many body, w => ∃ parts : List (List Token), (∀ u ∈ parts, body.Reads reads u) ∧ w = parts.flatten
  | construct name, u => reads name u

/-- What is derived is read, if each construct reads what its rule does. -/
theorem Derives.reads {reads : Construct → List Token → Prop} {r : Rule} {w : List TokenKind}
    (hreads : ∀ c u, c.rule.Reads reads u → reads c u) (h : Derives r w) :
    ∀ u : List Token, u.map Token.kind = w → r.Reads reads u := by
  induction h with
  | token hk =>
    intro u hu
    obtain ⟨t, rfl, rfl⟩ := List.map_eq_singleton_iff.mp hu
    exact ⟨t, hk, rfl⟩
  | empty => exact fun u hu => List.map_eq_nil_iff.mp hu
  | sequence _ _ ihu ihv =>
    intro w hw
    obtain ⟨u, v, rfl, hu, hv⟩ := List.map_eq_append_iff.mp hw
    exact ⟨u, v, ihu u hu, ihv v hv, rfl⟩
  | left _ ih => exact fun u hu => Or.inl (ih u hu)
  | right _ ih => exact fun u hu => Or.inr (ih u hu)
  | none =>
    intro u hu
    exact ⟨[], fun _ h => absurd h List.not_mem_nil, List.map_eq_nil_iff.mp hu⟩
  | more _ _ ihu ihv =>
    intro w hw
    obtain ⟨u, v, rfl, hu, hv⟩ := List.map_eq_append_iff.mp hw
    obtain ⟨parts, hparts, rfl⟩ := ihv v hv
    exact ⟨u :: parts, List.forall_mem_cons.mpr ⟨ihu u hu, hparts⟩, rfl⟩
  | construct _ ih => exact fun u hu => hreads _ u (ih u hu)

/-! ## Constructs over tokens -/

/-- What a construct is to read: the spelling of a canonical tree of its kind. -/
def Construct.Reads : Construct → List Token → Prop
  | program, u => ∃ p, Spelled Program.Canonical Program.spelling p u
  | group, u => ∃ d, Spelled Declaration.Canonical Declaration.spelling d u
  | statement, u => ∃ s, Spelled Statement.Canonical Statement.spelling s u
  | condition, u => ∃ c, Spelled Condition.Canonical Condition.spelling c u
  | expression, u => ∃ e, Spelled Expr.Canonical Expr.spelling e u
  | term, u => ∃ e, Spelled (fun e => e.Canonical ∧ ¬e.IsSum) Expr.spelling e u
  | factor, u => ∃ e, Spelled (fun e => e.Canonical ∧ ¬e.IsBinary) Expr.spelling e u

theorem reads_fixed_iff {reads : Construct → List Token → Prop} {k : TokenKind} {u : List Token}
    (hk : k.IsFixed) : (Rule.token [k]).Reads reads u ↔ u.map Token.essence = [.fixed k] := by
  constructor
  · rintro ⟨t, ht, rfl⟩
    rw [List.map_singleton, Token.essence_of_fixed hk (List.mem_singleton.mp ht)]
  · intro h
    obtain ⟨t, rfl, ht⟩ := List.map_eq_singleton_iff.mp h
    refine ⟨t, List.mem_singleton.mpr ?_, rfl⟩
    rw [← t.essence_kind, ht, Token.fixed_kind]

theorem exists_trees {α : Type} {good : α → Prop} {spelling : α → List Token}
    {parts : List (List Token)} (h : ∀ u ∈ parts, ∃ a, Spelled good spelling a u) :
    ∃ trees : List α, (∀ a ∈ trees, good a) ∧
      trees.map spelling = parts.map (List.map Token.essence) := by
  induction parts with
  | nil => exact ⟨[], fun _ h => absurd h List.not_mem_nil, rfl⟩
  | cons u parts ih =>
    obtain ⟨⟨a, ha, hu⟩, hparts⟩ := List.forall_mem_cons.mp h
    obtain ⟨trees, htrees, hmap⟩ := ih hparts
    refine ⟨a :: trees, List.forall_mem_cons.mpr ⟨ha, htrees⟩, ?_⟩
    rw [List.map_cons, List.map_cons, hu, hmap]

theorem exists_some_trees {α : Type} {good : α → Prop} {spelling : α → List Token}
    {reads : Construct → List Token → Prop} {body : Rule} {u : List Token}
    (h : (Rule.some body).Reads reads u)
    (hbody : ∀ u, body.Reads reads u → ∃ a, Spelled good spelling a u) :
    ∃ trees : List α, trees ≠ [] ∧ (∀ a ∈ trees, good a) ∧
      trees.flatMap spelling = u.map Token.essence := by
  obtain ⟨first, _, hfirst, ⟨parts, hparts, rfl⟩, rfl⟩ := h
  obtain ⟨a, ha, hspelling⟩ := hbody first hfirst
  obtain ⟨trees, htrees, hmap⟩ := exists_trees fun u hu => hbody u (hparts u hu)
  refine ⟨a :: trees, List.cons_ne_nil _ _, List.forall_mem_cons.mpr ⟨ha, htrees⟩, ?_⟩
  rw [List.flatMap_cons, hspelling, List.map_append, List.map_flatten, ← hmap, List.flatMap_def]

theorem exists_trees_after_commas {α : Type} {good : α → Prop} {spelling : α → List Token}
    {reads : Construct → List Token → Prop} {body : Rule} {parts : List (List Token)}
    (hparts : ∀ u ∈ parts, (Rule.sequence (.punct .comma) body).Reads reads u)
    (hbody : ∀ u, body.Reads reads u → ∃ a, Spelled good spelling a u) :
    ∃ trees : List α, (∀ a ∈ trees, good a) ∧
      afterCommas (trees.map spelling) = parts.flatten.map Token.essence := by
  have hspelled : ∀ u ∈ parts, ∃ a, Spelled good (fun a => .fixed (.punct .comma) :: spelling a) a u := by
    intro u hu
    obtain ⟨comma, v, hcomma, hv, rfl⟩ := hparts u hu
    obtain ⟨a, ha, hspelling⟩ := hbody v hv
    refine ⟨a, ha, ?_⟩
    have hcomma := (reads_fixed_iff (k := .punct .comma) trivial).mp hcomma
    simp only [List.map_append, hcomma, hspelling, List.singleton_append]
  obtain ⟨trees, htrees, hmap⟩ := exists_trees hspelled
  refine ⟨trees, htrees, ?_⟩
  rw [List.map_flatten, ← hmap, afterCommas, List.flatMap_map, List.flatMap_def]

theorem exists_separated_trees {α : Type} {good : α → Prop} {spelling : α → List Token}
    {reads : Construct → List Token → Prop} {body : Rule} {u : List Token}
    (h : (Rule.separated (.punct .comma) body).Reads reads u)
    (hbody : ∀ u, body.Reads reads u → ∃ a, Spelled good spelling a u) :
    ∃ trees : List α, trees ≠ [] ∧ (∀ a ∈ trees, good a) ∧
      commaSeparated (trees.map spelling) = u.map Token.essence := by
  obtain ⟨first, _, hfirst, ⟨parts, hparts, rfl⟩, rfl⟩ := h
  obtain ⟨a, ha, hspelling⟩ := hbody first hfirst
  obtain ⟨trees, htrees, hrest⟩ := exists_trees_after_commas hparts hbody
  refine ⟨a :: trees, List.cons_ne_nil _ _, List.forall_mem_cons.mpr ⟨ha, htrees⟩, ?_⟩
  rw [List.map_cons, commaSeparated, hspelling, hrest, List.map_append]

/-! ## Expressions -/

section

variable {chain operand : Expr → Prop} {kinds : List TokenKind} {name : Construct}
  (hstart : ∀ e, operand e → chain e)
  (hstep : ∀ k ∈ kinds, ∃ op : BinaryOp, op.kind = k ∧
    ∀ left right, chain left → operand right → chain (.binary .blank left op right))
  (hbody : ∀ u, name.Reads u → ∃ e, Spelled operand Expr.spelling e u)

include hstep hbody

theorem exists_longer_chain {left : Expr} {u v : List Token}
    (hleft : Spelled chain Expr.spelling left u)
    (hv : (Rule.sequence (.token kinds) (.construct name)).Reads Construct.Reads v) :
    ∃ e, Spelled chain Expr.spelling e (u ++ v) := by
  obtain ⟨_, w, ⟨t, ht, rfl⟩, hw, rfl⟩ := hv
  obtain ⟨op, hop, hnode⟩ := hstep t.kind ht
  obtain ⟨right, hright, hspelling⟩ := hbody w hw
  refine ⟨.binary .blank left op right, hnode left right hleft.1 hright, ?_⟩
  rw [Expr.spelling, hleft.2, hspelling, List.map_append, List.singleton_append, List.map_cons,
    Token.essence_of_fixed op.isFixed_kind hop.symm]

include hstart

theorem exists_chain {u : List Token}
    (h : (Rule.separated (.token kinds) (.construct name)).Reads Construct.Reads u) :
    ∃ e, Spelled chain Expr.spelling e u := by
  obtain ⟨first, _, hfirst, ⟨parts, hparts, rfl⟩, rfl⟩ := h
  -- What was read so far is the left operand of the next operator.
  have hextend (parts : List (List Token)) : ∀ u, (∃ e, Spelled chain Expr.spelling e u) →
      (∀ v ∈ parts, (Rule.sequence (.token kinds) (.construct name)).Reads Construct.Reads v) →
        ∃ e, Spelled chain Expr.spelling e (u ++ parts.flatten) := by
    induction parts with
    | nil =>
      intro u hu _
      rwa [List.flatten_nil, List.append_nil]
    | cons v parts ih =>
      rintro u ⟨left, hleft⟩ hparts
      obtain ⟨hv, hparts⟩ := List.forall_mem_cons.mp hparts
      rw [List.flatten_cons, ← List.append_assoc]
      exact ih (u ++ v) (exists_longer_chain hstep hbody hleft hv) hparts
  obtain ⟨e, he, hspelling⟩ := hbody first hfirst
  exact hextend parts first ⟨e, hstart e he, hspelling⟩ hparts

end

theorem reads_expression {u : List Token} (h : Construct.expression.rule.Reads Construct.Reads u) :
    Construct.expression.Reads u := by
  have hterm : ∀ u, Construct.term.Reads u →
      ∃ e, Spelled (fun e => e.Canonical ∧ ¬e.IsSum) Expr.spelling e u := fun _ h => h
  refine exists_chain (fun e he => he.1) ?_ hterm h
  intro k hk
  rcases List.mem_cons.mp hk with rfl | hk
  · exact ⟨.add, rfl, fun left right hl hr => ⟨hl, hr.1, hr.2⟩⟩
  · cases List.mem_singleton.mp hk
    exact ⟨.sub, rfl, fun left right hl hr => ⟨hl, hr.1, hr.2⟩⟩

theorem reads_term {u : List Token} (h : Construct.term.rule.Reads Construct.Reads u) :
    Construct.term.Reads u := by
  have hfactor : ∀ u, Construct.factor.Reads u →
      ∃ e, Spelled (fun e => e.Canonical ∧ ¬e.IsBinary) Expr.spelling e u := fun _ h => h
  refine exists_chain (fun e he => ⟨he.1, Expr.not_isSum_of_not_isBinary he.2⟩) ?_ hfactor h
  intro k hk
  rcases List.mem_cons.mp hk with rfl | hk
  · exact ⟨.mul, rfl, fun left right hl hr => ⟨⟨hl.1, hr.1, hl.2, hr.2⟩, not_false⟩⟩
  · cases List.mem_singleton.mp hk
    exact ⟨.div, rfl, fun left right hl hr => ⟨⟨hl.1, hr.1, hl.2, hr.2⟩, not_false⟩⟩

theorem exists_operand {u : List Token} (h : operand.Reads Construct.Reads u) :
    ∃ e, Spelled (fun e => e.Canonical ∧ e.IsOperand) Expr.spelling e u := by
  rcases h with ⟨t, ht, rfl⟩ | h | ⟨t, ht, -⟩
  · refine ⟨.value .blank t, ⟨ht, trivial⟩, ?_⟩
    rw [Expr.spelling, List.map_singleton, Token.essence_of_value ht]
  · obtain ⟨opening, _, hopening, ⟨u, _, ⟨e, he, hspelling⟩, ⟨closing, _, hclosing, rfl, rfl⟩, rfl⟩,
      rfl⟩ := h
    have hopening := (reads_fixed_iff (k := .punct .lparen) trivial).mp hopening
    have hclosing := (reads_fixed_iff (k := .punct .rparen) trivial).mp hclosing
    refine ⟨.group .blank e, ⟨he, trivial⟩, ?_⟩
    simp only [Expr.spelling, hspelling, List.map_append, hopening, hclosing, List.cons_append,
      List.nil_append, List.append_nil]
  · exact absurd ht List.not_mem_nil

theorem reads_factor {u : List Token} (h : Construct.factor.rule.Reads Construct.Reads u) :
    Construct.factor.Reads u := by
  obtain ⟨_, _, hsign, ⟨u, _, hu, rfl, rfl⟩, rfl⟩ := h
  obtain ⟨e, ⟨he, hshape⟩, hspelling⟩ := exists_operand hu
  rcases hsign with ⟨t, ht, rfl⟩ | rfl
  · have hsign : ∃ sign : Sign, sign.kind = t.kind := by
      rcases List.mem_cons.mp ht with ht | ht
      · exact ⟨.plus, ht.symm⟩
      · exact ⟨.minus, (List.mem_singleton.mp ht).symm⟩
    obtain ⟨sign, hsign⟩ := hsign
    refine ⟨.unary .blank sign e, ⟨⟨hshape, he⟩, not_false⟩, ?_⟩
    rw [Expr.spelling, hspelling, List.append_nil, List.singleton_append, List.map_cons,
      Token.essence_of_fixed sign.isFixed_kind hsign.symm]
  · refine ⟨e, ⟨he, Expr.not_isBinary_of_isOperand hshape⟩, ?_⟩
    rw [hspelling, List.append_nil, List.nil_append]

/-! ## Statements, declarations and programs -/

theorem reads_condition {u : List Token} (h : Construct.condition.rule.Reads Construct.Reads u) :
    Construct.condition.Reads u := by
  obtain ⟨u, _, ⟨left, hleft, hu⟩, ⟨_, _, ⟨t, ht, rfl⟩, ⟨v, _, ⟨right, hright, hv⟩, rfl, rfl⟩, rfl⟩,
    rfl⟩ := h
  obtain ⟨op, hop⟩ := RelationalOp.exists_of_mem ht
  refine ⟨⟨.blank, left, some op, right⟩, ⟨hleft, rfl, hright⟩, ?_⟩
  simp only [Condition.spelling, hu, hv, Option.toList_some, List.map_cons, List.map_nil,
    List.map_append, Token.essence_of_fixed op.isFixed_kind hop.symm, List.append_assoc,
    List.append_nil]

theorem exists_idents {u : List Token} (h : identifiers.Reads Construct.Reads u) :
    ∃ idents : List Ident, idents ≠ [] ∧ (∀ i ∈ idents, i.IsName) ∧
      Ident.spellings idents = u.map Token.essence := by
  refine exists_separated_trees h ?_
  rintro _ ⟨t, ht, rfl⟩
  have hname : Ident.IsName ⟨.blank, t⟩ := List.mem_singleton.mp ht
  exact ⟨⟨.blank, t⟩, hname, by rw [List.map_singleton, hname.essence]⟩

theorem exists_block {u : List Token} (h : (Rule.many (.construct .statement)).Reads Construct.Reads u) :
    ∃ body : List Statement, (∀ s ∈ body, s.Canonical) ∧
      Statement.spellings body = u.map Token.essence := by
  obtain ⟨parts, hparts, rfl⟩ := h
  obtain ⟨body, hbody, hmap⟩ := exists_trees hparts
  refine ⟨body, hbody, ?_⟩
  rw [Statement.spellings_eq_flatMap, List.map_flatten, ← hmap, List.flatMap_def]

theorem reads_group {u : List Token} (h : Construct.group.rule.Reads Construct.Reads u) :
    Construct.group.Reads u := by
  obtain ⟨u, _, hu, ⟨_, _, hlink, ⟨_, _, ⟨t, ht, rfl⟩, rfl, rfl⟩, rfl⟩, rfl⟩ := h
  obtain ⟨idents, hne, hnames, hspelling⟩ := exists_idents hu
  have hlink := (reads_fixed_iff (k := .keyword .as) trivial).mp hlink
  have htype : ∃ type : DeclType, type.kind = t.kind := by
    rcases List.mem_cons.mp ht with ht | ht
    · exact ⟨.real, ht.symm⟩
    · exact ⟨.integer, (List.mem_singleton.mp ht).symm⟩
  obtain ⟨type, htype⟩ := htype
  refine ⟨⟨.blank, idents, some type⟩, ⟨hne, hnames, rfl⟩, ?_⟩
  simp only [Declaration.spelling, hspelling, hlink, Option.toList_some, List.map_cons, List.map_nil,
    List.map_append, Token.essence_of_fixed type.isFixed_kind htype.symm, List.append_nil,
    List.singleton_append]

theorem exists_assignment {u : List Token} (h : assignment.Reads Construct.Reads u) :
    Construct.statement.Reads u := by
  obtain ⟨_, _, ⟨t, ht, rfl⟩, ⟨_, _, hequals, ⟨u, _, ⟨e, he, hu⟩, rfl, rfl⟩, rfl⟩, rfl⟩ := h
  have hequals := (reads_fixed_iff (k := .punct .equals) trivial).mp hequals
  have hname : Ident.IsName ⟨.blank, t⟩ := List.mem_singleton.mp ht
  have hessence : t.essence = t := hname.essence
  refine ⟨.assignment .blank ⟨.blank, t⟩ e, .assignment hname he, ?_⟩
  simp only [Statement.spelling, hu, hequals, hessence, List.map_append, List.map_cons,
    List.append_nil, List.singleton_append]

theorem exists_loop {u : List Token} (h : loop.Reads Construct.Reads u) :
    Construct.statement.Reads u := by
  obtain ⟨_, _, hfirst, ⟨u, _, ⟨c, hc, hu⟩, ⟨_, _, hopen, ⟨v, _, hv, ⟨_, _, hclose, rfl, rfl⟩, rfl⟩,
    rfl⟩, rfl⟩, rfl⟩ := h
  obtain ⟨body, hbody, hv⟩ := exists_block hv
  have hfirst := (reads_fixed_iff (k := .keyword .untilCond) trivial).mp hfirst
  have hopen := (reads_fixed_iff (k := .keyword .repeatBody) trivial).mp hopen
  have hclose := (reads_fixed_iff (k := .keyword .endLoop) trivial).mp hclose
  refine ⟨.loop .blank c body, .loop hc hbody, ?_⟩
  simp only [Statement.spelling, hu, hv, hfirst, hopen, hclose, List.map_append, List.append_assoc,
    List.append_nil, List.cons_append, List.nil_append]

theorem exists_conditional {u : List Token} (h : conditional.Reads Construct.Reads u) :
    Construct.statement.Reads u := by
  obtain ⟨_, _, hfirst, ⟨u, _, ⟨c, hc, hu⟩, ⟨_, _, hopen, ⟨v, _, hv, ⟨_, _, hsecond,
    ⟨_, _, hclose, rfl, rfl⟩, rfl⟩, rfl⟩, rfl⟩, rfl⟩, rfl⟩ := h
  obtain ⟨whenTrue, hwhenTrue, hv⟩ := exists_block hv
  have hfirst := (reads_fixed_iff (k := .keyword .ifCond) trivial).mp hfirst
  have hopen := (reads_fixed_iff (k := .keyword .thenBranch) trivial).mp hopen
  have hclose := (reads_fixed_iff (k := .keyword .endIf) trivial).mp hclose
  rcases hsecond with ⟨_, _, helse, ⟨w, _, hw, rfl, rfl⟩, rfl⟩ | rfl
  · obtain ⟨otherwise, hotherwise, hw⟩ := exists_block hw
    have helse := (reads_fixed_iff (k := .keyword .elseBranch) trivial).mp helse
    refine ⟨.conditional .blank c whenTrue (some otherwise), .alternative hc hwhenTrue hotherwise, ?_⟩
    simp only [Statement.spelling, hu, hv, hw, hfirst, hopen, helse, hclose, List.map_append,
      List.append_assoc, List.append_nil, List.cons_append, List.nil_append]
  · refine ⟨.conditional .blank c whenTrue none, .conditional hc hwhenTrue, ?_⟩
    simp only [Statement.spelling, hu, hv, hfirst, hopen, hclose, List.map_append, List.append_assoc,
      List.append_nil, List.cons_append, List.nil_append]

theorem exists_input {u : List Token} (h : input.Reads Construct.Reads u) :
    Construct.statement.Reads u := by
  obtain ⟨_, _, hfirst, ⟨u, _, hu, rfl, rfl⟩, rfl⟩ := h
  obtain ⟨targets, hne, hnames, hu⟩ := exists_idents hu
  have hfirst := (reads_fixed_iff (k := .keyword .input) trivial).mp hfirst
  refine ⟨.input .blank targets, .input hne hnames, ?_⟩
  rw [Statement.spelling, hu, List.map_append, hfirst, List.append_nil, List.singleton_append]

theorem exists_output {u : List Token} (h : output.Reads Construct.Reads u) :
    Construct.statement.Reads u := by
  obtain ⟨_, _, hfirst, ⟨u, _, hu, rfl, rfl⟩, rfl⟩ := h
  have hexpression : ∀ u, Construct.expression.Reads u →
      ∃ e, Spelled Expr.Canonical Expr.spelling e u := fun _ h => h
  obtain ⟨values, hne, hvalues, hu⟩ := exists_separated_trees hu hexpression
  have hfirst := (reads_fixed_iff (k := .keyword .output) trivial).mp hfirst
  refine ⟨.output .blank values, .output hne hvalues, ?_⟩
  rw [Statement.spelling, hu, List.map_append, hfirst, List.append_nil, List.singleton_append]

theorem reads_statement {u : List Token} (h : Construct.statement.rule.Reads Construct.Reads u) :
    Construct.statement.Reads u := by
  rcases h with h | h | h | h | h | ⟨t, ht, -⟩
  · exact exists_assignment h
  · exact exists_loop h
  · exact exists_conditional h
  · exact exists_input h
  · exact exists_output h
  · exact absurd ht List.not_mem_nil

theorem reads_program {u : List Token} (h : Construct.program.rule.Reads Construct.Reads u) :
    Construct.program.Reads u := by
  obtain ⟨_, _, hfirst, ⟨_, _, ⟨name, hname, rfl⟩, ⟨_, _, hwith, ⟨_, _, hgroups, ⟨_, _, hin,
    ⟨_, _, hbody, ⟨_, _, hend, rfl, rfl⟩, rfl⟩, rfl⟩, rfl⟩, rfl⟩, rfl⟩, rfl⟩ := h
  have hgroup : ∀ u, Construct.group.Reads u →
      ∃ d, Spelled Declaration.Canonical Declaration.spelling d u := fun _ h => h
  have hstatement : ∀ u, Construct.statement.Reads u →
      ∃ s, Spelled Statement.Canonical Statement.spelling s u := fun _ h => h
  obtain ⟨groups, hgroups_ne, hgroups, hds⟩ := exists_some_trees hgroups hgroup
  obtain ⟨body, hbody_ne, hbody, hss⟩ := exists_some_trees hbody hstatement
  have hfirst := (reads_fixed_iff (k := .keyword .program) trivial).mp hfirst
  have hwith := (reads_fixed_iff (k := .keyword .withDecls) trivial).mp hwith
  have hin := (reads_fixed_iff (k := .keyword .inBody) trivial).mp hin
  have hend := (reads_fixed_iff (k := .keyword .endProgram) trivial).mp hend
  have hname : name.kind = .identifier := List.mem_singleton.mp hname
  have hessence : name.essence = name := Token.essence_of_value (hname ▸ by decide)
  refine ⟨⟨some name, groups, body, .start⟩,
    ⟨⟨name, rfl, hname⟩, hgroups_ne, hgroups, hbody_ne, hbody⟩, ?_⟩
  simp only [Program.spelling, Option.toList_some, Statement.spellings_eq_flatMap, hds, hss, hfirst,
    hessence, hwith, hin, hend, List.map_append, List.map_cons, List.append_assoc, List.append_nil,
    List.cons_append, List.nil_append]

theorem reads_rule (c : Construct) (u : List Token) (h : c.rule.Reads Construct.Reads u) : c.Reads u := by
  cases c with
  | program => exact reads_program h
  | group => exact reads_group h
  | statement => exact reads_statement h
  | condition => exact reads_condition h
  | expression => exact reads_expression h
  | term => exact reads_term h
  | factor => exact reads_factor h

/-! ## Sentences -/

/-- A stream is a sentence exactly when a canonical tree spells it. -/
theorem derives_iff_exists_canonical (u : List Token) :
    Construct.program.Derives (u.map Token.kind) ↔
      ∃ p : Program, p.Canonical ∧ p.spelling = u.map Token.essence := by
  constructor
  · exact fun h => Derives.reads reads_rule h u rfl
  · rintro ⟨p, hp, hspelling⟩
    have := derives_program hp
    rwa [hspelling, Token.map_kind_essence] at this

end PalChecker.Grammar
