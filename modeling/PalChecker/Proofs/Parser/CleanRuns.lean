import PalChecker.Proofs.Parser.DeclarationRules
import PalChecker.Proofs.Parser.Faithful
import PalChecker.Proofs.Syntax.Canonical
import PalChecker.Proofs.Token.Stream

/-!
# Runs without an error

What a run without an error reads is canonical, and the tokens it consumed spell it.
-/

namespace PalChecker.Parser

/-! ## Expressions -/

/-- `u` spells the canonical expression `e`, which is of some shape. -/
def SpelledAs (shape : Expr → Prop) (e : Expr) (u : List Token) : Prop :=
  shape e ∧ e.Canonical ∧ e.spelling = u.map Token.essence

/-- `u` spells what extends `left` to `e`, and `e` is canonical and of some shape if `left` is. -/
def ExtendedBy (shape : Expr → Prop) (left e : Expr) (u : List Token) : Prop :=
  (shape left → left.Canonical → shape e ∧ e.Canonical) ∧
    e.spelling = left.spelling ++ u.map Token.essence

theorem ExtendedBy.refl {shape : Expr → Prop} {left : Expr} : ExtendedBy shape left left [] :=
  ⟨And.intro, (List.append_nil _).symm⟩

theorem SpelledAs.extend {shape : Expr → Prop} {left e : Expr} {u v : List Token}
    (hleft : SpelledAs shape left u) (he : ExtendedBy shape left e v) :
    SpelledAs shape e (u ++ v) := by
  obtain ⟨hshape, hcanonical, hu⟩ := hleft
  obtain ⟨hextended, hv⟩ := he
  obtain ⟨hshape', hcanonical'⟩ := hextended hshape hcanonical
  refine ⟨hshape', hcanonical', ?_⟩
  rw [hv, hu, List.map_append]

theorem ExtendedBy.binary {shape rightShape : Expr → Prop} {left right e : Expr} {stamp : Stamp}
    {op : BinaryOp} {token : Token} {u v : List Token} (htoken : token.kind = op.kind)
    (hright : SpelledAs rightShape right u)
    (hnode : shape left → left.Canonical → rightShape right → right.Canonical →
      shape (.binary stamp left op right) ∧ (Expr.binary stamp left op right).Canonical)
    (he : ExtendedBy shape (.binary stamp left op right) e v) :
    ExtendedBy shape left e (token :: (u ++ v)) := by
  obtain ⟨hshape, hcanonical, hu⟩ := hright
  obtain ⟨hextended, hv⟩ := he
  refine ⟨fun hl hlc => ?_, ?_⟩
  · obtain ⟨h1, h2⟩ := hnode hl hlc hshape hcanonical
    exact hextended h1 h2
  · have hop : token.essence = .fixed op.kind :=
      Token.essence_of_fixed op.isFixed_kind htoken
    rw [hv, Expr.spelling, hu, List.map_cons, List.map_append, hop]
    simp

theorem Faithful.operator {shape rightShape : Expr → Prop} {s t w : State} {left right e : Expr}
    {op : BinaryOp} (hs : s.kind ≠ .endOfFile) (hkind : op.kind = s.kind)
    (hright : Faithful (SpelledAs rightShape) s.bump right t)
    (hnode : ∀ stamp, shape left → left.Canonical → rightShape right → right.Canonical →
      shape (.binary stamp left op right) ∧ (Expr.binary stamp left op right).Canonical)
    (he : Faithful (ExtendedBy shape (.binary (t.stamp s.location) left op right)) t.tick e w) :
    Faithful (ExtendedBy shape left) s e w := by
  have hrest : Faithful (fun e u => ExtendedBy shape left e (s.current :: u)) s.bump e w :=
    (hright.tick fun _ h => h).andThen he fun u v hu hv =>
      ExtendedBy.binary hkind.symm hu (hnode _) hv
  refine (hrest.consume hs).imp ?_
  rintro _ ⟨u, rfl, hu⟩
  exact hu

theorem faithful_expression_rules :
    ExpressionRules (Faithful (SpelledAs fun _ => True)) (Faithful (SpelledAs (¬·.IsSum)))
      (Faithful (SpelledAs (¬·.IsBinary))) (Faithful (SpelledAs Expr.IsOperand))
      (fun left => Faithful (ExtendedBy (fun _ => True) left))
      (fun left => Faithful (ExtendedBy (¬·.IsSum) left)) where
  sum first rest := first.andThen rest fun u v hu hv => SpelledAs.extend ⟨trivial, hu.2⟩ hv
  sums_stop _ := .pure .refl
  sums_step {s t u left right e op} h first rest := by
    obtain ⟨hadditive, hkind⟩ := BinaryOp.additive?_eq_some_iff.mp h
    refine .operator (ne_endOfFile_of_additive h) hkind first ?_ rest
    intro stamp _ hleft hshape hright
    refine ⟨trivial, hleft, hright, ?_⟩
    rwa [if_pos hadditive]
  product first rest := first.andThen rest fun u v hu hv =>
    SpelledAs.extend ⟨Expr.not_isSum_of_not_isBinary hu.1, hu.2⟩ hv
  products_stop _ := .pure .refl
  products_step {s t u left right e op} h first rest := by
    obtain ⟨hadditive, hkind⟩ := BinaryOp.multiplicative?_eq_some_iff.mp h
    refine .operator (ne_endOfFile_of_multiplicative h) hkind first ?_ rest
    intro stamp hshape hleft hbinary hright
    refine ⟨hadditive, hleft, hright, ?_⟩
    rw [if_neg hadditive]
    exact ⟨hshape, hbinary⟩
  signed {s t sign e} h operand := by
    refine (operand.fixed (Sign.ofKind?_eq_some_iff.mp h).symm sign.isFixed_kind).tick ?_
    rintro u ⟨v, hu, hshape, hcanonical, hv⟩
    refine ⟨not_false, ⟨hshape, hcanonical⟩, ?_⟩
    rw [Expr.spelling, hv, hu]
  unsigned _ operand := operand.imp fun u hu => ⟨Expr.not_isBinary_of_isOperand hu.1, hu.2⟩
  value {s} h := by
    refine (faithful_bump TokenKind.value (by decide) h).tick ?_
    rintro u ⟨token, htoken, hkind, rfl⟩
    cases htoken
    refine ⟨trivial, hkind, ?_⟩
    rw [Expr.spelling, List.map_singleton, Token.essence_of_value hkind]
  group h inner := by
    refine ((inner.closed (.punct .rparen) .factor trivial).fixed h trivial).tick ?_
    rintro u ⟨v, hu, w, hv, -, hcanonical, hw⟩
    refine ⟨trivial, hcanonical, ?_⟩
    rw [Expr.spelling, hw, hu, hv, List.cons_append]
  retry {s t e} hs hresumed factor := by
    apply Faithful.ofFail (n := .factor)
    rw [← State.errors_synchronize .factor [] (s.fail .factor)]
    exact factor.grows
  error {s} hs hresumed := by
    apply Faithful.ofFail (n := .factor)
    simp only [State.errors_tick, State.errors_synchronize]
    exact List.prefix_rfl

theorem faithful_expression (s : State) :
    Faithful (SpelledAs fun _ => True) s (expression s).value (expression s).state :=
  faithful_expression_rules.run.1 s

/-! ## Names, values and tests -/

abbrev MoreNamesSpelled : List Ident → List Token → Prop :=
  Spelled (∀ i ∈ ·, i.IsName) fun idents => afterCommas (idents.map ([·.token]))

abbrev NamesSpelled : List Ident → List Token → Prop :=
  Spelled (fun idents => idents ≠ [] ∧ ∀ i ∈ idents, i.IsName) Ident.spellings

abbrev MoreValuesSpelled : List Expr → List Token → Prop :=
  Spelled (∀ e ∈ ·, e.Canonical) fun values => afterCommas (values.map Expr.spelling)

def NameSpelled (o : Option Ident) (u : List Token) : Prop :=
  ∃ i, o = some i ∧ i.IsName ∧ u = [i.token]

theorem Faithful.test {s t w : State} {left right : Expr}
    (hleft : Faithful (SpelledAs fun _ => True) s left t) :
    let op := t.expectAny TokenKind.relationalOperator .booleanExpr
    Faithful (SpelledAs fun _ => True) op.state right w →
      Faithful (Spelled Condition.Canonical Condition.spelling) s
        { stamp := w.stamp s.location
          left
          op := op.value.bind fun token => RelationalOp.ofKind? token.kind
          right }
        w.tick := by
  intro op hright
  have hop := faithful_expectAny TokenKind.relationalOperator .booleanExpr t (by decide)
  refine ((hleft.both hop).both hright).tick ?_
  rintro _ ⟨_, v, rfl, ⟨u, _, rfl, ⟨-, hleft, hu⟩, token, htoken, hkind, rfl⟩, -, hright, hv⟩
  obtain ⟨o, ho⟩ := RelationalOp.exists_of_mem hkind
  have hfound : (op.value.bind fun token => RelationalOp.ofKind? token.kind) = some o := by
    rw [show op.value = some token from htoken, Option.bind_some]
    exact RelationalOp.ofKind?_eq_some_iff.mpr ho
  refine ⟨⟨hleft, by rw [hfound]; rfl, hright⟩, ?_⟩
  unfold Condition.spelling
  simp only [hfound, hu, hv, Option.toList_some, List.map_cons, List.map_nil, List.map_append,
    Token.essence_of_fixed o.isFixed_kind ho.symm]

theorem faithful_part_rules :
    PartRules (Faithful (SpelledAs fun _ => True)) (Faithful (Spelled (·.Canonical) (·.spelling)))
      (Faithful NameSpelled) (Faithful MoreNamesSpelled) (Faithful NamesSpelled)
      (Faithful MoreValuesSpelled) where
  test left right := left.test right
  name {s token} h := by
    refine (faithful_expectAny [.identifier] .identList s (by decide)).tick ?_
    rintro u ⟨found, hfound, hkind, rfl⟩
    cases h.symm.trans hfound
    exact ⟨_, rfl, List.mem_singleton.mp hkind, rfl⟩
  no_name h := (faithful_of_none (by decide) h).imp fun _ h => h.elim
  names_stop _ := .pure ⟨fun _ h => absurd h List.not_mem_nil, rfl⟩
  names_step h first rest := by
    refine ((first.both rest).fixed h trivial).imp ?_
    rintro u ⟨_, hu, _, v, rfl, ⟨i, rfl, hi, rfl⟩, hnames, hv⟩
    refine ⟨List.forall_mem_cons.mpr ⟨hi, hnames⟩, ?_⟩
    simp only [Option.toList_some, List.singleton_append, List.map_cons, afterCommas_cons, hv, hu,
      hi.essence]
  names first rest := by
    refine (first.both rest).imp ?_
    rintro u ⟨_, v, rfl, ⟨i, rfl, hi, rfl⟩, hnames, hv⟩
    refine ⟨⟨List.cons_ne_nil _ _, List.forall_mem_cons.mpr ⟨hi, hnames⟩⟩, ?_⟩
    simp only [Option.toList_some, List.singleton_append, Ident.spellings, List.map_cons,
      commaSeparated, hv, hi.essence]
  values_stop _ := .pure ⟨fun _ h => absurd h List.not_mem_nil, rfl⟩
  values_step h first rest := by
    refine ((first.both rest).fixed h trivial).imp ?_
    rintro u ⟨_, hu, v, v', rfl, ⟨-, hcanonical, hv⟩, hvalues, hv'⟩
    refine ⟨List.forall_mem_cons.mpr ⟨hcanonical, hvalues⟩, ?_⟩
    simp only [List.map_cons, afterCommas_cons, hv, hv', hu, List.map_append]

theorem faithful_identifiers (s : State) :
    Faithful NamesSpelled s (identifiers s).value (identifiers s).state :=
  faithful_part_rules.run_names s

/-! ## Statements -/

abbrev StatementSpelled : Statement → List Token → Prop :=
  Spelled Statement.Canonical Statement.spelling

abbrev BlockSpelled : List Statement → List Token → Prop :=
  Spelled (∀ s ∈ ·, s.Canonical) Statement.spellings

theorem Faithful.guarded {s t u : State} {test : Condition} {body : List Statement}
    {opening : TokenKind} {n : Nonterminal}
    (htest : Faithful (Spelled Condition.Canonical Condition.spelling) s test t)
    (hbody : Faithful BlockSpelled (t.expect opening n).state body u)
    (hopening : opening.IsFixed) :
    Faithful
      (fun (test, body) => Spelled (fun _ => test.Canonical ∧ ∀ s ∈ body, s.Canonical)
        (fun _ => test.spelling ++ .fixed opening :: Statement.spellings body) ())
      s (test, body) u := by
  refine ((htest.closed opening n hopening).both hbody).imp ?_
  rintro _ ⟨u, v, rfl, ⟨w, hu, htest, hw⟩, hbody, hv⟩
  refine ⟨⟨htest, hbody⟩, ?_⟩
  rw [List.map_append, hu, hw, hv, List.append_assoc, List.singleton_append]

theorem faithful_statement_rules :
    StatementRules (Faithful (SpelledAs fun _ => True))
      (Faithful (Spelled Condition.Canonical Condition.spelling)) (Faithful NamesSpelled)
      (Faithful MoreValuesSpelled) (Faithful StatementSpelled) fun _ => Faithful BlockSpelled where
  assignment {s t value} h _ hvalue := by
    have hequals := faithful_expect (.punct .equals) .assignment s.bump.tick trivial
    have hhead := faithful_bump [.identifier] (by decide) (List.mem_singleton.mpr h)
    refine ((hhead.both (hequals.both hvalue).of_tick)).tick ?_
    rintro _ ⟨_, _, rfl, ⟨token, hfound, hkind, rfl⟩, u, v, rfl, hu, -, hcanonical, hv⟩
    cases hfound
    have hname : Ident.IsName ⟨s.bump.stamp s.location, s.current⟩ := h
    refine ⟨.assignment hname hcanonical, ?_⟩
    have hessence : s.current.essence = s.current := hname.essence
    rw [Statement.spelling, hv, List.singleton_append, List.map_cons, List.map_append, hu, hessence]
    rfl
  target h hnone := by
    -- Without `=` there is an error, so that a run without errors says nothing.
    have hhead := faithful_bump [.identifier] (by decide) (List.mem_singleton.mpr h)
    refine ((hhead.both (faithful_of_none (by decide) hnone).of_tick).tick fun _ h => h).tick ?_
    rintro _ ⟨_, _, rfl, _, hfalse⟩
    exact hfalse.elim
  loop {s t u test body} h htest hbody := by
    have hguarded := Faithful.guarded htest hbody trivial
    refine ((hguarded.closed (.keyword .endLoop) .loop trivial).fixed h trivial).tick ?_
    rintro w ⟨w', hw, v, hw', ⟨htest, hbody⟩, hv⟩
    refine ⟨.loop htest hbody, ?_⟩
    rw [hw, hw', ← hv, Statement.spelling]
    simp only [List.append_assoc, List.cons_append]
  conditional {s t u test whenTrue} h htest hblock _ := by
    have hguarded := Faithful.guarded htest hblock trivial
    refine ((hguarded.closed (.keyword .endIf) .conditional trivial).fixed h trivial).tick ?_
    rintro w ⟨w', hw, v, hw', ⟨htest, hblock⟩, hv⟩
    refine ⟨.conditional htest hblock, ?_⟩
    rw [hw, hw', ← hv, Statement.spelling]
    simp only [List.append_assoc, List.cons_append]
  alternative {s t u v test whenTrue otherwise} h htest hblock helse hotherwise := by
    have hguarded := Faithful.guarded htest hblock trivial
    have hboth := hguarded.both (hotherwise.fixed helse trivial)
    refine ((hboth.closed (.keyword .endIf) .conditional trivial).fixed h trivial).tick ?_
    rintro w ⟨w', hw, _, hw', x, y, rfl, ⟨⟨htest, hblock⟩, hx⟩, z, hy, hotherwise, hz⟩
    refine ⟨.alternative htest hblock hotherwise, ?_⟩
    rw [hw, hw', List.map_append, ← hx, hy, ← hz, Statement.spelling]
    simp only [List.append_assoc, List.cons_append]
  input h targets := by
    refine (targets.fixed h trivial).tick ?_
    rintro u ⟨v, hu, ⟨hne, hnames⟩, hv⟩
    refine ⟨.input hne hnames, ?_⟩
    rw [Statement.spelling, hv, hu]
  output h first rest := by
    refine ((first.both rest).fixed h trivial).tick ?_
    rintro u ⟨_, hu, v, v', rfl, ⟨-, hcanonical, hv⟩, hvalues, hv'⟩
    refine ⟨.output (List.cons_ne_nil _ _) (List.forall_mem_cons.mpr ⟨hcanonical, hvalues⟩), ?_⟩
    simp only [Statement.spelling, List.map_cons, commaSeparated, hv, hv', hu, List.map_append]
  stop _ := .pure ⟨fun _ h => absurd h List.not_mem_nil, rfl⟩
  step _ _ first rest := by
    refine (first.both rest).imp ?_
    rintro _ ⟨u, v, rfl, ⟨hfirst, hu⟩, hrest, hv⟩
    refine ⟨List.forall_mem_cons.mpr ⟨hfirst, hrest⟩, ?_⟩
    rw [Statement.spellings, hu, hv, List.map_append]
  skip {stops s t rest} _ _ block := by
    -- The rest of the block is read behind an error.
    apply Faithful.ofFail (n := .statement)
    rw [← State.errors_discard (s.fail .statement),
      ← State.errors_synchronize .statement [] (s.fail .statement).discard]
    exact block.grows

theorem faithful_statements (stops : List TokenKind) (s : State) :
    Faithful BlockSpelled s (statements stops s).value (statements stops s).state :=
  faithful_statement_rules.run faithful_expression
    (faithful_part_rules.run_test faithful_expression) faithful_identifiers
    (faithful_part_rules.run_moreValues faithful_expression) stops s

/-! ## Declarations -/

abbrev MoreGroupsSpelled : List Declaration → List Token → Prop :=
  Spelled (∀ d ∈ ·, d.Canonical) (List.flatMap Declaration.spelling)

abbrev GroupsSpelled : List Declaration → List Token → Prop :=
  Spelled (fun groups => groups ≠ [] ∧ ∀ d ∈ groups, d.Canonical) (List.flatMap Declaration.spelling)

def TypeSpelled (o : Option DeclType) (u : List Token) : Prop :=
  ∃ type, o = some type ∧ u.map Token.essence = [.fixed type.kind]

theorem faithful_type {s : State} (type : DeclType) (h : s.kind = type.kind) :
    Faithful TypeSpelled s (some type) s.bump := by
  have heof : .endOfFile ∉ [type.kind] := mt List.mem_singleton.mp type.isFixed_kind.ne_endOfFile.symm
  refine (faithful_bump [type.kind] heof (List.mem_singleton.mpr h)).imp ?_
  rintro u ⟨token, -, hkind, rfl⟩
  refine ⟨type, rfl, ?_⟩
  rw [List.map_singleton, Token.essence_of_fixed type.isFixed_kind (List.mem_singleton.mp hkind)]

theorem faithful_declaration_rules :
    DeclarationRules (Faithful NamesSpelled) (Faithful TypeSpelled)
      (Faithful (Spelled Declaration.Canonical Declaration.spelling)) (Faithful MoreGroupsSpelled)
      (Faithful GroupsSpelled) where
  real h := faithful_type .real h
  integer h := faithful_type .integer h
  no_type {s} _ _ := by
    apply Faithful.ofFail (n := .type)
    simp only [State.errors_synchronize, errors_dropName]
    exact List.prefix_rfl
  group names type := by
    refine ((names.closed (.keyword .as) .varDecls trivial).both type).tick ?_
    rintro _ ⟨u, v, rfl, ⟨w, hu, ⟨hne, hnames⟩, hw⟩, found, rfl, hv⟩
    refine ⟨⟨hne, hnames, rfl⟩, ?_⟩
    rw [Declaration.spelling, hw, List.map_append, hu, hv]
    simp only [Option.toList_some, List.map_cons, List.map_nil, List.append_assoc,
      List.singleton_append]
  stop _ := .pure ⟨fun _ h => absurd h List.not_mem_nil, rfl⟩
  step _ first rest := by
    refine (first.both rest).imp ?_
    rintro _ ⟨u, v, rfl, ⟨hfirst, hu⟩, hrest, hv⟩
    refine ⟨List.forall_mem_cons.mpr ⟨hfirst, hrest⟩, ?_⟩
    rw [List.flatMap_cons, hu, hv, List.map_append]
  groups first rest := by
    refine (first.both rest).imp ?_
    rintro _ ⟨u, v, rfl, ⟨hfirst, hu⟩, hrest, hv⟩
    refine ⟨⟨List.cons_ne_nil _ _, List.forall_mem_cons.mpr ⟨hfirst, hrest⟩⟩, ?_⟩
    rw [List.flatMap_cons, hu, hv, List.map_append]

/-! ## Programs -/

theorem faithful_filled (body : List Statement) (s : State) :
    Faithful (fun _ u => u = [] ∧ body ≠ []) s () (s.filled body) := by
  cases body with
  | nil => exact .ofFail (n := .statement) List.prefix_rfl
  | cons first rest => exact .pure ⟨rfl, List.cons_ne_nil first rest⟩

theorem faithful_ended (s : State) :
    Faithful (fun _ u => u = [] ∧ s.ended.kind = .endOfFile) s () s.ended := by
  by_cases h : s.kind = .endOfFile
  · simp only [State.ended, if_pos h]
    exact .pure ⟨rfl, h⟩
  · simp only [State.ended, if_neg h]
    exact .ofFail (n := .program) List.prefix_rfl

theorem faithful_groups (s : State) :
    Faithful GroupsSpelled s (declarations s).value (declarations s).state :=
  faithful_declaration_rules.run faithful_identifiers s

theorem faithful_header (s : State) :
    let name := (s.expect (.keyword .program) .program).state.expect .identifier .program
    Faithful
      (fun o u => ∃ token, o = some token ∧ token.kind = .identifier ∧
        u.map Token.essence = [.fixed (.keyword .program), token, .fixed (.keyword .withDecls)])
      s name.value (name.state.expect (.keyword .withDecls) .program).state := by
  intro name
  have hprogram := faithful_expect (.keyword .program) .program s trivial
  have hname := faithful_expectAny [.identifier] .program
    (s.expect (.keyword .program) .program).state (by decide)
  refine ((hprogram.both hname).closed (.keyword .withDecls) .program trivial).imp ?_
  rintro w ⟨_, hw, u, _, rfl, hu, token, htoken, hkind, rfl⟩
  have hname : token.kind = .identifier := List.mem_singleton.mp hkind
  refine ⟨token, htoken, hname, ?_⟩
  rw [hw, List.map_append, hu, List.map_singleton, Token.essence_of_value (hname ▸ by decide)]
  rfl

theorem faithful_parse (tokens : List Token) :
    Faithful
      (fun p u => Spelled Program.Canonical Program.spelling p u ∧
        (parse tokens).final.kind = .endOfFile)
      (.ofTokens tokens) (parse tokens).program (parse tokens).final := by
  refine parse_rule (Faithful GroupsSpelled) (Faithful BlockSpelled) (fun s p t =>
    Faithful (fun p u => Spelled Program.Canonical Program.spelling p u ∧ t.kind = .endOfFile) s p t)
    faithful_groups (faithful_statements _) ?_ tokens
  intro s t w groups body name hgroups hbody
  -- The parts are joined from the left, each with the terminal that closes it.
  have hmiddle := ((faithful_header s).both hgroups).closed (.keyword .inBody) .program trivial
  have hfilled := (hmiddle.both hbody).both (faithful_filled body w)
  have hclosed := hfilled.closed (.keyword .endProgram) .program trivial
  refine (hclosed.both (faithful_ended _)).imp ?_
  rintro _ ⟨a, _, rfl, ⟨_, ha, b, _, rfl, ⟨c, d, rfl, ⟨_, hc, f, g, rfl, ⟨token, htoken, hkind, hf⟩,
    ⟨hne, hgroups⟩, hg⟩, hbody, hd⟩, rfl, hbody_ne⟩, rfl, hend⟩
  refine ⟨⟨⟨⟨token, htoken, hkind⟩, hne, hgroups, hbody_ne, hbody⟩, ?_⟩, hend⟩
  have hname : name.value = some token := htoken
  simp only [Program.spelling, hname, hg, hd, ha, hc, hf, List.append_nil, List.map_append,
    Option.toList_some, List.append_assoc, List.cons_append, List.nil_append]

theorem State.Consumes.beforeEnd_eq {s t : State} {u : List Token} (h : s.Consumes u t)
    (hend : t.kind = .endOfFile) :
    Token.beforeEnd (s.cursor.ahead ++ [s.cursor.closing]) = u := by
  rw [h.ahead, List.append_assoc]
  cases hahead : t.cursor.ahead with
  | nil => exact Token.beforeEnd_append_cons h.inside s.cursor.closing_kind []
  | cons x rest =>
    have hx : x.kind = .endOfFile := by
      rw [← hend, State.kind, Cursor.kind, Cursor.current, hahead, List.headD_cons]
    exact Token.beforeEnd_append_cons h.inside hx _

/-- A stream without a syntax error is the spelling of the canonical tree that is read from it. -/
theorem canonical_of_clean {tokens : List Token} (h : (parse tokens).errors = []) :
    (parse tokens).program.Canonical ∧
      (parse tokens).program.spelling = (Token.beforeEnd tokens).map Token.essence := by
  obtain ⟨u, hu, ⟨hcanonical, hspelling⟩, hend⟩ := (faithful_parse tokens).clean rfl h
  have hbefore : Token.beforeEnd tokens = u :=
    (Cursor.beforeEnd_ofTokens tokens).symm.trans (hu.beforeEnd_eq hend)
  rw [hbefore]
  exact ⟨hcanonical, hspelling⟩

end PalChecker.Parser
