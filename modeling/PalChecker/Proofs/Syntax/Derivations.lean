import PalChecker.Proofs.Syntax.Canonical
import PalChecker.Proofs.Syntax.Grammar

/-!
# Canonical trees are derived

The kinds of what a canonical tree spells are a word of its construct. The grammar repeats to the right
and trees nest to the left, so a chain of operators grows at its end.
-/

namespace PalChecker.Grammar

theorem Derives.of_eq {r : Rule} {u v : List TokenKind} (h : Derives r u) (huv : u = v) :
    Derives r v := huv ▸ h

/-! ## Repetition -/

theorem Derives.many_snoc {a : Rule} {u v : List TokenKind} (hu : Derives (.many a) u)
    (hv : Derives a v) : Derives (.many a) (u ++ v) := by
  generalize hr : Rule.many a = r at hu
  induction hu with
  | none =>
    cases hr
    have := Derives.more hv .none
    rwa [List.append_nil] at this
  | more hfirst _ _ ih =>
    cases hr
    rw [List.append_assoc]
    exact .more hfirst (ih rfl)
  | token | empty | sequence | left | right | construct => cases hr

theorem Derives.separated_snoc {separator body : Rule} {u v w : List TokenKind}
    (hu : Derives (.separated separator body) u) (hv : Derives separator v) (hw : Derives body w) :
    Derives (.separated separator body) (u ++ (v ++ w)) := by
  cases hu with
  | sequence hfirst hrest =>
    rw [List.append_assoc]
    exact .sequence hfirst (hrest.many_snoc (.sequence hv hw))

theorem Derives.separated_one {separator body : Rule} {u : List TokenKind} (h : Derives body u) :
    Derives (.separated separator body) u := by
  have := Derives.sequence h (Derives.none (a := .sequence separator body))
  rwa [List.append_nil] at this

theorem Derives.many_flatMap {α : Type} {a : Rule} {xs : List α} {word : α → List TokenKind}
    (h : ∀ x ∈ xs, Derives a (word x)) : Derives (.many a) (xs.flatMap word) := by
  induction xs with
  | nil => exact .none
  | cons x xs ih =>
    obtain ⟨hx, hxs⟩ := List.forall_mem_cons.mp h
    rw [List.flatMap_cons]
    exact .more hx (ih hxs)

/-! ## Trees are derived -/

theorem derives_fixed (k : TokenKind) : Derives (.token [k]) [k] := .token (List.mem_singleton.mpr rfl)

theorem Derives.fixed {r : Rule} {u : List TokenKind} (k : TokenKind) (h : Derives r u) :
    Derives (.sequence (.token [k]) r) (k :: u) := .sequence (derives_fixed k) h

theorem Derives.last {r : Rule} {u : List TokenKind} (h : Derives r u) :
    Derives (.sequence r .empty) u := by
  have := Derives.sequence h .empty
  rwa [List.append_nil] at this

/-- The kinds of the spelling of `e` are derived at each tier it can stand at. -/
structure IsDerived (e : Expr) : Prop where
  operand : e.IsOperand → Derives Grammar.operand (e.spelling.map Token.kind)
  factor : ¬e.IsBinary → Derives (.construct .factor) (e.spelling.map Token.kind)
  term : ¬e.IsSum → Derives (.construct .term) (e.spelling.map Token.kind)
  expression : Derives (.construct .expression) (e.spelling.map Token.kind)

namespace IsDerived

theorem of_term {e : Expr} (hbinary : e.IsBinary)
    (h : Derives (.construct .term) (e.spelling.map Token.kind)) : IsDerived e where
  operand hshape := absurd hbinary (Expr.not_isBinary_of_isOperand hshape)
  factor hfalse := absurd hbinary hfalse
  term _ := h
  expression := .construct h.separated_one

theorem of_factor {e : Expr}
    (operand : e.IsOperand → Derives Grammar.operand (e.spelling.map Token.kind))
    (h : Derives (.construct .factor) (e.spelling.map Token.kind)) : IsDerived e := by
  have hterm : Derives (.construct .term) (e.spelling.map Token.kind) := .construct h.separated_one
  exact {
    operand := operand
    factor _ := h
    term _ := hterm
    expression := .construct hterm.separated_one }

theorem of_operand {e : Expr} (h : Derives Grammar.operand (e.spelling.map Token.kind)) :
    IsDerived e := by
  exact of_factor (fun _ => h) (.construct (.sequence (.right .empty) h.last))

theorem unary {stamp : Stamp} {sign : Sign} {e : Expr} (hshape : e.IsOperand) (he : IsDerived e) :
    IsDerived (.unary stamp sign e) := by
  have hsign : sign.kind ∈ [TokenKind.punct .plus, .punct .minus] := by cases sign <;> decide
  exact of_factor (fun hfalse => absurd hfalse not_false)
    (.construct (.sequence (.left (.token hsign)) (he.operand hshape).last))

theorem group {stamp : Stamp} {e : Expr} (he : IsDerived e) : IsDerived (.group stamp e) := by
  refine of_operand (.right (.left (.of_eq (.fixed (.punct .lparen)
    (.sequence he.expression (derives_fixed (.punct .rparen)).last)) ?_)))
  simp only [Expr.spelling, List.map_append, List.map_cons, List.map_nil, Token.fixed_kind,
    List.cons_append]

theorem sum {stamp : Stamp} {left right : Expr} {op : BinaryOp} (hop : op.IsAdditive)
    (hleft : IsDerived left) (hright : IsDerived right) (hshape : ¬right.IsSum) :
    IsDerived (.binary stamp left op right) where
  operand hfalse := absurd hfalse not_false
  factor hfalse := absurd trivial hfalse
  term hfalse := absurd hop hfalse
  expression := by
    have hkind : op.kind ∈ [TokenKind.punct .plus, .punct .minus] := by
      cases op with
      | add | sub => decide
      | mul | div => exact absurd hop not_false
    cases hleft.expression with
    | construct h =>
      refine .construct (.of_eq (h.separated_snoc (.token hkind) (hright.term hshape)) ?_)
      rw [Expr.spelling, List.map_append, List.map_cons, Token.fixed_kind, List.singleton_append]

theorem product {stamp : Stamp} {left right : Expr} {op : BinaryOp} (hop : ¬op.IsAdditive)
    (hleft : IsDerived left) (hright : IsDerived right) (hleftShape : ¬left.IsSum)
    (hrightShape : ¬right.IsBinary) : IsDerived (.binary stamp left op right) := by
  have hkind : op.kind ∈ [TokenKind.punct .star, .punct .slash] := by
    cases op with
    | add | sub => exact absurd trivial hop
    | mul | div => decide
  cases hleft.term hleftShape with
  | construct h =>
    refine of_term trivial
      (.construct (.of_eq (h.separated_snoc (.token hkind) (hright.factor hrightShape)) ?_))
    rw [Expr.spelling, List.map_append, List.map_cons, Token.fixed_kind, List.singleton_append]

end IsDerived

theorem isDerived_of_canonical {e : Expr} (h : e.Canonical) : IsDerived e := by
  induction e with
  | value => exact .of_operand (.left (.token h))
  | unary _ _ operand ih => exact .unary h.1 (ih h.2)
  | group _ inner ih => exact .group (ih h)
  | binary _ left op right ihleft ihright =>
    obtain ⟨hleft, hright, hshape⟩ := h
    by_cases hop : op.IsAdditive
    · rw [if_pos hop] at hshape
      exact .sum hop (ihleft hleft) (ihright hright) hshape
    · rw [if_neg hop] at hshape
      exact .product hop (ihleft hleft) (ihright hright) hshape.1 hshape.2
  | error => exact absurd h not_false

theorem derives_separated {α : Type} {spelling : α → List Token} {body : Rule} {trees : List α}
    (hne : trees ≠ []) (h : ∀ a ∈ trees, Derives body ((spelling a).map Token.kind)) :
    Derives (.separated (.punct .comma) body)
      ((commaSeparated (trees.map spelling)).map Token.kind) := by
  obtain ⟨a, trees, rfl⟩ := List.exists_cons_of_ne_nil hne
  obtain ⟨ha, htrees⟩ := List.forall_mem_cons.mp h
  have hrest : Derives (.many (.sequence (.punct .comma) body))
      (trees.flatMap fun a => [.punct .comma] ++ (spelling a).map Token.kind) :=
    .many_flatMap fun a ha => .sequence (derives_fixed _) (htrees a ha)
  refine .of_eq (.sequence ha hrest) ?_
  simp only [List.map_cons, commaSeparated, List.map_append, afterCommas, List.flatMap_map,
    List.map_flatMap, Token.fixed_kind, List.singleton_append]

theorem derives_idents {idents : List Ident} (hne : idents ≠ []) (h : ∀ i ∈ idents, i.IsName) :
    Derives identifiers ((Ident.spellings idents).map Token.kind) :=
  derives_separated hne fun i hi => .token (List.mem_singleton.mpr (h i hi))

theorem derives_condition {c : Condition} (h : c.Canonical) :
    Derives (.construct .condition) (c.spelling.map Token.kind) := by
  obtain ⟨hleft, hop, hright⟩ := h
  obtain ⟨op, hop⟩ := Option.isSome_iff_exists.mp hop
  have hkind : op.kind ∈ [TokenKind.punct .less, .punct .equals, .punct .greater] := by
    cases op <;> decide
  refine .construct (.of_eq (.sequence (isDerived_of_canonical hleft).expression
    (.sequence (.token hkind) (isDerived_of_canonical hright).expression.last)) ?_)
  simp only [Condition.spelling, hop, Option.toList_some, List.map_cons, List.map_nil, List.map_append,
    Token.fixed_kind, List.append_assoc]

theorem derives_block {body : List Statement}
    (h : ∀ s ∈ body, Derives (.construct .statement) (s.spelling.map Token.kind)) :
    Derives (.many (.construct .statement)) ((Statement.spellings body).map Token.kind) := by
  rw [Statement.spellings_eq_flatMap, List.map_flatMap]
  exact .many_flatMap h

theorem derives_statement {s : Statement} (h : s.Canonical) :
    Derives (.construct .statement) (s.spelling.map Token.kind) := by
  refine .construct ?_
  induction h with
  | assignment htarget hvalue =>
    refine .left (.of_eq (.sequence (.token (List.mem_singleton.mpr htarget))
      (.fixed (.punct .equals) (isDerived_of_canonical hvalue).expression.last)) ?_)
    rw [Statement.spelling, List.map_cons, List.map_cons, Token.fixed_kind, List.singleton_append]
  | loop htest _ ih =>
    refine .right (.left (.of_eq (.fixed (.keyword .untilCond) (.sequence (derives_condition htest)
      (.fixed (.keyword .repeatBody) (.sequence (derives_block fun s hs => .construct (ih s hs))
        (derives_fixed (.keyword .endLoop)).last)))) ?_))
    simp only [Statement.spelling, List.map_append, List.map_cons, List.map_nil, Token.fixed_kind,
      List.cons_append, List.append_assoc]
  | conditional htest _ ih =>
    refine .right (.right (.left (.of_eq (.fixed (.keyword .ifCond) (.sequence (derives_condition htest)
      (.fixed (.keyword .thenBranch) (.sequence (derives_block fun s hs => .construct (ih s hs))
        (.sequence (.right .empty) (derives_fixed (.keyword .endIf)).last))))) ?_)))
    simp only [Statement.spelling, List.map_append, List.map_cons, List.map_nil, Token.fixed_kind,
      List.cons_append, List.append_assoc, List.nil_append]
  | alternative htest _ _ ih ih' =>
    -- Only here the optional part of the rule is taken.
    have hsecond := Derives.fixed (.keyword .elseBranch)
      (derives_block fun s hs => .construct (ih' s hs)).last
    refine .right (.right (.left (.of_eq (.fixed (.keyword .ifCond) (.sequence (derives_condition htest)
      (.fixed (.keyword .thenBranch) (.sequence (derives_block fun s hs => .construct (ih s hs))
        (.sequence (.left hsecond) (derives_fixed (.keyword .endIf)).last))))) ?_)))
    simp only [Statement.spelling, List.map_append, List.map_cons, List.map_nil, Token.fixed_kind,
      List.cons_append, List.append_assoc]
  | input hne hnames =>
    exact .right (.right (.right (.left (.fixed (.keyword .input) (derives_idents hne hnames).last))))
  | output hne hvalues =>
    exact .right (.right (.right (.right (.left (.fixed (.keyword .output) (derives_separated hne
      fun e he => (isDerived_of_canonical (hvalues e he)).expression).last)))))

theorem derives_group {d : Declaration} (h : d.Canonical) :
    Derives (.construct .group) (d.spelling.map Token.kind) := by
  obtain ⟨hne, hnames, htype⟩ := h
  obtain ⟨type, htype⟩ := Option.isSome_iff_exists.mp htype
  have hkind : type.kind ∈ [TokenKind.keyword .real, .keyword .integer] := by cases type <;> decide
  refine .construct (.of_eq (.sequence (derives_idents hne hnames) (.fixed (.keyword .as)
    (Derives.token hkind).last)) ?_)
  simp only [Declaration.spelling, htype, Option.toList_some, List.map_append, List.map_cons,
    List.map_nil, Token.fixed_kind]

theorem derives_some {α : Type} {spelling : α → List Token} {body : Rule} {trees : List α}
    (hne : trees ≠ []) (h : ∀ a ∈ trees, Derives body ((spelling a).map Token.kind)) :
    Derives (.some body) ((trees.flatMap spelling).map Token.kind) := by
  obtain ⟨a, trees, rfl⟩ := List.exists_cons_of_ne_nil hne
  obtain ⟨ha, htrees⟩ := List.forall_mem_cons.mp h
  refine .of_eq (.sequence ha (.many_flatMap htrees)) ?_
  rw [List.flatMap_cons, List.map_append, List.map_flatMap]

theorem derives_program {p : Program} (h : p.Canonical) :
    Derives (.construct .program) (p.spelling.map Token.kind) := by
  obtain ⟨⟨name, hname, hkind⟩, hgroups_ne, hgroups, hbody_ne, hbody⟩ := h
  have hds := derives_some hgroups_ne fun d hd => derives_group (hgroups d hd)
  have hss := derives_some hbody_ne fun s hs => derives_statement (hbody s hs)
  refine .construct (.of_eq (.fixed (.keyword .program) (.sequence (.token (List.mem_singleton.mpr hkind))
    (.fixed (.keyword .withDecls) (.sequence hds (.fixed (.keyword .inBody)
      (.sequence hss (derives_fixed (.keyword .endProgram)).last)))))) ?_)
  simp only [Program.spelling, hname, Option.toList_some, Statement.spellings_eq_flatMap,
    List.map_append, List.map_cons, List.map_nil, Token.fixed_kind, List.cons_append, List.nil_append,
    List.append_assoc]

end PalChecker.Grammar
