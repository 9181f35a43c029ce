import PalChecker.Proofs.Parser.TwoRuns

/-!
# Every reading is repeated

Whatever is read without an error is read again, with the same places, over any stream that begins alike.
Only the section of declarations looks at two tokens, where a name may begin a group or an assignment.
-/

namespace PalChecker.Parser

/-! ## One token -/

theorem kind_eq_of_current {s s' : State} (h : s'.current = s.current) : s'.kind = s.kind :=
  congrArg Token.kind h

theorem location_eq_of_current {s s' : State} (h : s'.current = s.current) :
    s'.location = s.location := congrArg Token.location h

theorem mirrors_expectAny (kinds : List TokenKind) (n : Nonterminal) (heof : .endOfFile ∉ kinds)
    (s s' : State) :
    Mirrors parting Eq s (s.expectAny kinds n).result s' (s'.expectAny kinds n).result := by
  have hlater' := (State.Precedes.refl s').expectAny kinds n
  by_cases h : s.kind ∈ kinds
  · rw [State.expectAny_of_mem n h]
    refine .consume (fun hs => heof (hs ▸ h)) (.refl _) hlater' fun hc => ?_
    rw [State.expectAny_of_mem n (kind_eq_of_current hc ▸ h), hc]
    exact .pure rfl
  · rw [State.expectAny_of_not_mem n h]
    exact .ofFail (((State.Precedes.refl _).synchronize n kinds).eatAny kinds) hlater'

theorem mirrors_expect {k : TokenKind} (n : Nonterminal) (hk : k.IsFixed) (s s' : State) :
    Mirrors parting Eq s (s.expect k n).result s' (s'.expect k n).result :=
  mirrors_expectAny [k] n (mt List.mem_singleton.mp hk.ne_endOfFile.symm) s s'

theorem Mirrors.closed {α : Type} {fork : Fork} [fork.Steady] {R : α → α → Prop}
    {s s' t t' : State} {a a' : α} (h : Mirrors fork R s (a, t) s' (a', t')) (k : TokenKind)
    (n : Nonterminal) (hk : k.IsFixed) :
    Mirrors fork R s (a, (t.expect k n).state) s' (a', (t'.expect k n).state) :=
  h.andThen (mirrors_expect n hk t t').narrow fun ha _ => ha

/-! ## Expressions -/

/-- It is read again, whatever state the same tokens are read from. -/
abbrev ReadAlike {α : Type} (fork : Fork) (erase : α → α) (f : (s : State) → Parsed α s) :
    Reading α :=
  fun s a t => ∀ s', Mirrors fork (AlikeBy erase) s (a, t) s' (f s').result

/-- What extends `left` is read again, and extends what is like `left` alike. -/
abbrev ExtendedAlike (extend : Expr → (s : State) → Parsed Expr s) (left : Expr) : Reading Expr :=
  fun s e t => ∀ left' s', Mirrors parting
    (fun e e' => AlikeBy Expr.unnumbered left left' → AlikeBy Expr.unnumbered e e') s (e, t) s'
    (extend left' s').result

theorem alike_unary {e e' : Expr} (location : Location) (sign : Sign) (t t' : State)
    (h : AlikeBy Expr.unnumbered e e') :
    AlikeBy Expr.unnumbered (.unary (t.stamp location) sign e) (.unary (t'.stamp location) sign e') :=
  congrArg (Expr.unary ⟨location, 0⟩ sign) h

theorem alike_binary {left left' right right' : Expr} (location : Location) (op : BinaryOp)
    (t t' : State) (hleft : AlikeBy Expr.unnumbered left left')
    (hright : AlikeBy Expr.unnumbered right right') :
    AlikeBy Expr.unnumbered (.binary (t.stamp location) left op right)
      (.binary (t'.stamp location) left' op right') := by
  unfold AlikeBy at hleft hright ⊢
  rw [Expr.unnumbered, Expr.unnumbered, hleft, hright]
  rfl

theorem alike_group {e e' : Expr} (location : Location) (t t' : State)
    (h : AlikeBy Expr.unnumbered e e') :
    AlikeBy Expr.unnumbered (.group (t.stamp location) e) (.group (t'.stamp location) e') :=
  congrArg (Expr.group ⟨location, 0⟩) h

theorem sign_of_ends {k : TokenKind} (h : Ends k) : Sign.ofKind? k = none := by
  have hadditive := h.additive
  unfold Sign.ofKind?
  split
  · cases hadditive
  · cases hadditive
  · rfl

theorem mirrored_expression_rules :
    ExpressionRules (ReadAlike parting Expr.unnumbered expression)
      (ReadAlike parting Expr.unnumbered term) (ReadAlike parting Expr.unnumbered factor)
      (ReadAlike parting Expr.unnumbered primary) (ExtendedAlike sums) (ExtendedAlike products) where
  sum first rest s' := by
    rw [expression_result]
    exact (first s').andThen (rest _ _) fun h h' => h' h
  sums_stop {s left} h left' s' := by
    refine .look (fun hk => hk.additive) h (.refl s) (later_expression_rules.run.2.1 left' s') fun h' => ?_
    rw [sums_of_not_additive left' h']
    exact .pure fun hleft => hleft
  sums_step {s t u left right e op} h hright hrest left' s' := by
    have hlater := (hright s).later.trans (hrest left s).later
    refine .consume (ne_endOfFile_of_additive h) hlater (later_expression_rules.run.2.1 left' s') ?_
    intro hc
    rw [sums_of_additive left' (kind_eq_of_current hc ▸ h), location_eq_of_current hc]
    exact (hright s'.bump).andThen (.of_tick (hrest _ _)) fun hr hrest hleft =>
      hrest (alike_binary _ op _ _ hleft hr)
  product first rest s' := by
    rw [term_result]
    exact (first s').andThen (rest _ _) fun h h' => h' h
  products_stop {s left} h left' s' := by
    refine .look (fun hk => hk.multiplicative) h (.refl s)
      (later_expression_rules.run.2.2.2.1 left' s') fun h' => ?_
    rw [products_of_not_multiplicative left' h']
    exact .pure fun hleft => hleft
  products_step {s t u left right e op} h hright hrest left' s' := by
    have hlater := (hright s).later.trans (hrest left s).later
    refine .consume (ne_endOfFile_of_multiplicative h) hlater
      (later_expression_rules.run.2.2.2.1 left' s') ?_
    intro hc
    rw [products_of_multiplicative left' (kind_eq_of_current hc ▸ h), location_eq_of_current hc]
    exact (hright s'.bump).andThen (.of_tick (hrest _ _)) fun hr hrest hleft =>
      hrest (alike_binary _ op _ _ hleft hr)
  signed {s t sign e} h operand s' := by
    refine .consume (ne_endOfFile_of_sign h) (operand s).later.tick
      (later_expression_rules.run.2.2.2.2.1 s') fun hc => ?_
    rw [factor_of_sign (kind_eq_of_current hc ▸ h), signed_result, location_eq_of_current hc]
    exact (operand s'.bump).tick (alike_unary _ sign _ _)
  unsigned {s t e} h operand s' := by
    refine .look sign_of_ends h (operand s).later (later_expression_rules.run.2.2.2.2.1 s') fun h' => ?_
    rw [factor_of_not_sign h']
    exact operand s'
  value {s} h s' := by
    have hstart : s.kind ∈ TokenKind.operandStart := TokenKind.mem_operandStart_iff.mpr (.inl h)
    refine .consume (ne_endOfFile_of_operandStart hstart) (State.Precedes.refl _).tick
      (later_expression_rules.run.2.2.2.2.2 s') fun hc => ?_
    have hparen : s'.current.kind ≠ .punct .lparen := by
      rintro hparen
      rw [show s.kind = .punct .lparen from (kind_eq_of_current hc).symm.trans hparen] at h
      exact absurd h (by decide)
    rw [primary_of_operandStart (kind_eq_of_current hc ▸ hstart), operand_of_ne_lparen _ _ hparen, hc]
    exact (Mirrors.pure (R := Eq) (rfl : s.current = s.current)).tick fun _ => rfl
  group {s t e} h inner := by
    intro close s'
    have hstart : s.kind ∈ TokenKind.operandStart := by
      rw [h]
      decide
    refine .consume (ne_endOfFile_of_operandStart hstart) ((inner s).later.expect _ _).tick
      (later_expression_rules.run.2.2.2.2.2 s') fun hc => ?_
    have hparen : s'.current.kind = .punct .lparen := (kind_eq_of_current hc).trans h
    rw [primary_of_operandStart (kind_eq_of_current hc ▸ hstart), operand_of_lparen _ _ hparen, hc]
    exact ((inner s'.bump).closed (.punct .rparen) .factor trivial).tick (alike_group _ _ _)
  retry {s t e} _ _ factor s' := .ofFail
    (((State.Precedes.refl _).synchronize _ _).trans (factor s).later)
    (later_expression_rules.run.2.2.2.2.2 s')
  error {s} _ _ s' := .ofFail ((State.Precedes.refl _).synchronize _ _).tick
    (later_expression_rules.run.2.2.2.2.2 s')

theorem mirrored_expression (s s' : State) :
    Mirrors parting (AlikeBy Expr.unnumbered) s (expression s).result s' (expression s').result :=
  mirrored_expression_rules.run.1 s s'

/-! ## Names, values and tests -/

theorem alike_toList_append {i i' : Option Ident} {rest rest' : List Ident}
    (h : AlikeBy (Option.map Ident.unnumbered) i i') (hs : AlikeBy (List.map Ident.unnumbered) rest rest') :
    AlikeBy (List.map Ident.unnumbered) (i.toList ++ rest) (i'.toList ++ rest') := by
  unfold AlikeBy at h hs ⊢
  rw [List.map_append, List.map_append, ← Option.toList_map, ← Option.toList_map, h, hs]

theorem alike_condition {left left' right right' : Expr} {found found' : Option Token}
    (location : Location) (t t' : State) (hleft : AlikeBy Expr.unnumbered left left')
    (hfound : found = found') (hright : AlikeBy Expr.unnumbered right right') :
    AlikeBy Condition.unnumbered
      { stamp := t.stamp location
        left
        op := found.bind fun token => RelationalOp.ofKind? token.kind
        right }
      { stamp := t'.stamp location
        left := left'
        op := found'.bind fun token => RelationalOp.ofKind? token.kind
        right := right' } := by
  subst hfound
  unfold AlikeBy at hleft hright ⊢
  simp only [Condition.unnumbered, hleft, hright]
  rfl

theorem mirrored_part_rules :
    PartRules (ReadAlike parting Expr.unnumbered expression)
      (ReadAlike sharing Condition.unnumbered condition)
      (ReadAlike parting (Option.map Ident.unnumbered) identifier)
      (ReadAlike parting (List.map Ident.unnumbered) moreIdentifiers)
      (ReadAlike parting (List.map Ident.unnumbered) identifiers)
      (ReadAlike parting (List.map Expr.unnumbered) moreValues) where
  test {s t u left right} hleft := by
    intro op hright s'
    have hlater := ((hleft s).later.expectAny _ _).trans (hright s).later
    refine .same id hlater.tick (later_condition s') fun hc => ?_
    rw [condition_result, location_eq_of_current hc]
    have hop := mirrors_expectAny TokenKind.relationalOperator .booleanExpr (by decide) t
      (expression s').state
    exact (((hleft s').both hop).both (hright _)).narrow.tick fun h =>
      alike_condition _ _ _ h.1.1 h.1.2 h.2
  name {s token} := by
    intro name hname s'
    have hexpect := mirrors_expectAny [.identifier] .identList (by decide) s s'
    cases hname' : (s'.expect .identifier .identList).value with
    | some token' =>
      rw [identifier_of_some hname']
      refine hexpect.tick fun h => ?_
      cases hname.symm.trans (h.trans hname')
      rfl
    | none =>
      rw [identifier_of_none hname']
      refine hexpect.apart (fun h => ?_) (State.Precedes.refl _).tick (.refl _)
      cases hname.symm.trans (h.trans hname')
  no_name {s} := by
    intro name hname s'
    have hlater := (later_part_rules.run_name s')
    exact .ofFail (State.precedes_of_none hname) hlater
  names_stop h s' := by
    refine .look (fun hk => hk.ne_comma) h (.refl _) (later_part_rules.run_moreNames s') fun h' => ?_
    rw [moreIdentifiers_of_ne_comma h']
    exact .pure rfl
  names_step {s t u first rest} h hfirst hrest s' := by
    refine .consume (by rw [h]; decide) ((hfirst s).later.trans (hrest s).later)
      (later_part_rules.run_moreNames s') fun hc => ?_
    rw [moreIdentifiers_of_comma ((kind_eq_of_current hc).trans h)]
    exact (hfirst s'.bump).andThen (hrest _) alike_toList_append
  names {s t u first rest} hfirst hrest s' := by
    rw [identifiers_result]
    exact (hfirst s').andThen (hrest _) alike_toList_append
  values_stop h s' := by
    refine .look (fun hk => hk.ne_comma) h (.refl _)
      (later_part_rules.run_moreValues later_expression s') fun h' => ?_
    rw [moreValues_of_ne_comma h']
    exact .pure rfl
  values_step {s t u first rest} h hfirst hrest s' := by
    refine .consume (by rw [h]; decide) ((hfirst s).later.trans (hrest s).later)
      (later_part_rules.run_moreValues later_expression s') fun hc => ?_
    rw [moreValues_of_comma ((kind_eq_of_current hc).trans h)]
    exact (hfirst s'.bump).andThen (hrest _) AlikeBy.cons

theorem mirrored_condition (s s' : State) :
    Mirrors sharing (AlikeBy Condition.unnumbered) s (condition s).result s' (condition s').result :=
  mirrored_part_rules.run_test mirrored_expression s s'

theorem mirrored_identifiers (s s' : State) :
    Mirrors parting (AlikeBy (List.map Ident.unnumbered)) s (identifiers s).result s'
      (identifiers s').result :=
  mirrored_part_rules.run_names s s'

theorem mirrored_moreValues (s s' : State) :
    Mirrors parting (AlikeBy (List.map Expr.unnumbered)) s (moreValues s).result s'
      (moreValues s').result :=
  mirrored_part_rules.run_moreValues mirrored_expression s s'

/-! ## Statements -/

theorem alike_assignment {value value' : Expr} {target : Token} (t u t' u' : State)
    (h : AlikeBy Expr.unnumbered value value') :
    AlikeBy Statement.unnumbered
      (.assignment (u.stamp target.location) ⟨t.stamp target.location, target⟩ value)
      (.assignment (u'.stamp target.location) ⟨t'.stamp target.location, target⟩ value') :=
  congrArg (Statement.assignment ⟨target.location, 0⟩ ⟨⟨target.location, 0⟩, target⟩) h

theorem alike_loop {test test' : Condition} {body body' : List Statement} (location : Location)
    (t t' : State) (htest : AlikeBy Condition.unnumbered test test')
    (hbody : AlikeBy Statement.allUnnumbered body body') :
    AlikeBy Statement.unnumbered (.loop (t.stamp location) test body)
      (.loop (t'.stamp location) test' body') := by
  unfold AlikeBy at htest hbody ⊢
  rw [Statement.unnumbered, Statement.unnumbered, htest, hbody]
  rfl

theorem alike_conditional {test test' : Condition} {whenTrue whenTrue' : List Statement}
    (location : Location) (t t' : State) (htest : AlikeBy Condition.unnumbered test test')
    (hblock : AlikeBy Statement.allUnnumbered whenTrue whenTrue') :
    AlikeBy Statement.unnumbered (.conditional (t.stamp location) test whenTrue none)
      (.conditional (t'.stamp location) test' whenTrue' none) := by
  unfold AlikeBy at htest hblock ⊢
  rw [Statement.unnumbered, Statement.unnumbered, htest, hblock]
  rfl

theorem alike_alternative {test test' : Condition}
    {whenTrue whenTrue' otherwise otherwise' : List Statement} (location : Location) (t t' : State)
    (htest : AlikeBy Condition.unnumbered test test')
    (hblock : AlikeBy Statement.allUnnumbered whenTrue whenTrue')
    (hotherwise : AlikeBy Statement.allUnnumbered otherwise otherwise') :
    AlikeBy Statement.unnumbered (.conditional (t.stamp location) test whenTrue (some otherwise))
      (.conditional (t'.stamp location) test' whenTrue' (some otherwise')) := by
  unfold AlikeBy at htest hblock hotherwise ⊢
  rw [Statement.unnumbered, Statement.unnumbered, htest, hblock, hotherwise]
  rfl

theorem alike_block_cons {first first' : Statement} {rest rest' : List Statement}
    (hfirst : AlikeBy Statement.unnumbered first first')
    (hrest : AlikeBy Statement.allUnnumbered rest rest') :
    AlikeBy Statement.allUnnumbered (first :: rest) (first' :: rest') :=
  List.cons_eq_cons.mpr ⟨hfirst, hrest⟩

/-- A statement is read again from any state that looks at the same token. -/
abbrev StatementReadAlike : Reading Statement := fun s st t => ∀ s', s'.current = s.current →
  Mirrors sharing (AlikeBy Statement.unnumbered) s (st, t) s' (statement s'.current s'.bump).result

theorem Mirrors.guarded {s t u : State} {test : Condition} {body : List Statement} {opening : TokenKind}
    {n : Nonterminal} (htest : ReadAlike sharing Condition.unnumbered condition s test t)
    (hbody : ReadAlike sharing Statement.allUnnumbered (statements TokenKind.blockEnd)
      (t.expect opening n).state body u) (hopening : opening.IsFixed) (s' : State) :
    let block := statements TokenKind.blockEnd ((condition s').state.expect opening n).state
    Mirrors sharing
      (fun x x' => AlikeBy Condition.unnumbered x.1 x'.1 ∧ AlikeBy Statement.allUnnumbered x.2 x'.2)
      s ((test, body), u) s' (((condition s').value, block.value), block.state) :=
  ((htest s').closed opening n hopening).both (hbody _)

/-- A statement without a block is read again even where the streams part behind it. -/
abbrev SimplyReadAlike : Reading Statement := fun s st t => ∀ s', s'.current = s.current →
  Mirrors parting (AlikeBy Statement.unnumbered) s (st, t) s' (statement s'.current s'.bump).result

section

variable {s t u : State}

theorem mirrors_assignment {value : Expr} (h : s.kind = .identifier) :
    let equals := s.bump.tick.expect (.punct .equals) .assignment
    equals.value.isSome → ReadAlike parting Expr.unnumbered expression equals.state value t →
      SimplyReadAlike s
        (.assignment (t.stamp s.location) ⟨s.bump.stamp s.location, s.current⟩ value) t.tick := by
  intro equals hequals hvalue s' hc
  rw [statement_of_identifier _ _ ((congrArg Token.kind hc).trans h)]
  refine .bump (by rw [h]; decide) hc ?_
  have hexpect := mirrors_expect (k := .punct .equals) .assignment trivial s.bump.tick s'.bump.tick
  cases hequals' : (s'.bump.tick.expect (.punct .equals) .assignment).value with
  | some token =>
    rw [assignment_of_some _ (by rw [hequals']; rfl), hc]
    exact (hexpect.of_tick.andThen (hvalue _) fun _ h => h).tick (alike_assignment _ _ _ _)
  | none =>
    rw [assignment_of_none _ hequals']
    refine hexpect.of_tick.apart (fun h => ?_) (hvalue s).later.tick (State.Precedes.refl _).tick.tick
    rw [show equals.value = none from h.trans hequals'] at hequals
    cases hequals

theorem mirrors_target {st : Statement} (h : s.kind = .identifier) :
    let equals := s.bump.tick.expect (.punct .equals) .assignment
    equals.value = none → SimplyReadAlike s st equals.state.tick.tick := by
  intro equals hequals s' hc
  rw [statement_of_identifier _ _ ((congrArg Token.kind hc).trans h)]
  have hlater : (s.bump.tick.fail .assignment).Precedes equals.state.tick.tick :=
    (State.precedes_of_none hequals).tick.tick
  exact .bump (by rw [h]; decide) hc (.of_tick (.ofFail hlater (later_assignment s'.current s'.bump)))

theorem mirrors_input {targets : List Ident} (h : s.kind = .keyword .input)
    (htargets : ReadAlike parting (List.map Ident.unnumbered) identifiers s.bump targets t) :
    SimplyReadAlike s (.input (t.stamp s.location) targets) t.tick := by
  intro s' hc
  rw [statement_of_input _ _ ((congrArg Token.kind hc).trans h), input_result, hc]
  refine .bump (by rw [h]; decide) hc ((htargets s'.bump).tick fun h => ?_)
  exact congrArg (Statement.input ⟨s.location, 0⟩) h

theorem mirrors_output {first : Expr} {rest : List Expr} (h : s.kind = .keyword .output)
    (hfirst : ReadAlike parting Expr.unnumbered expression s.bump first t)
    (hrest : ReadAlike parting (List.map Expr.unnumbered) moreValues t rest u) :
    SimplyReadAlike s (.output (u.stamp s.location) (first :: rest)) u.tick := by
  intro s' hc
  rw [statement_of_output _ _ ((congrArg Token.kind hc).trans h), output_result, hc]
  refine .bump (by rw [h]; decide) hc (((hfirst s'.bump).both (hrest _)).tick fun h => ?_)
  exact congrArg (Statement.output ⟨s.location, 0⟩) (h.1.cons h.2)

end

theorem mirrored_statement_rules :
    StatementRules (ReadAlike parting Expr.unnumbered expression)
      (ReadAlike sharing Condition.unnumbered condition)
      (ReadAlike parting (List.map Ident.unnumbered) identifiers)
      (ReadAlike parting (List.map Expr.unnumbered) moreValues) StatementReadAlike
      (fun stops => ReadAlike sharing Statement.allUnnumbered (statements stops)) where
  assignment h := fun hequals hvalue s' hc => (mirrors_assignment h hequals hvalue s' hc).narrow
  target h := fun hequals s' hc => (mirrors_target h hequals s' hc).narrow
  loop {s t u test body} h htest hbody := by
    intro close s' hc
    rw [statement_of_until _ _ ((congrArg Token.kind hc).trans h), loop_result, hc]
    refine .bump (by rw [h]; decide) hc ?_
    have hguarded := Mirrors.guarded htest hbody trivial s'.bump
    exact (hguarded.closed (.keyword .endLoop) .loop trivial).tick fun h => alike_loop _ _ _ h.1 h.2
  conditional {s t u test whenTrue} h htest hblock helse := by
    intro close s' hc
    rw [statement_of_if _ _ ((congrArg Token.kind hc).trans h), hc]
    refine .bump (by rw [h]; decide) hc ?_
    have hguarded := Mirrors.guarded htest hblock trivial s'.bump
    have hrest : Mirrors sharing
        (fun st st' => AlikeBy Condition.unnumbered test (condition s'.bump).value ∧
          AlikeBy Statement.allUnnumbered whenTrue s'.bump.thenBlock.value →
            AlikeBy Statement.unnumbered st st')
        u (.conditional (close.stamp s.location) test whenTrue none, close.tick) s'.bump.thenBlock.state
        (Parser.conditional s.location s'.bump).result := by
      refine .same id ((State.Precedes.refl u).expect _ _).tick (later_thenBlock _ _) fun hc' => ?_
      rw [conditional_of_ne_else _ (kind_eq_of_current hc' ▸ helse)]
      have hclose := mirrors_expect (k := .keyword .endIf) .conditional trivial u s'.bump.thenBlock.state
      exact hclose.narrow.tick fun _ h => alike_conditional _ _ _ h.1 h.2
    exact hguarded.andThen hrest fun h h' => h' h
  alternative {s t u v test whenTrue otherwise} h htest hblock helse hotherwise := by
    intro close s' hc
    rw [statement_of_if _ _ ((congrArg Token.kind hc).trans h), hc]
    refine .bump (by rw [h]; decide) hc ?_
    have hguarded := Mirrors.guarded htest hblock trivial s'.bump
    have hrest : Mirrors sharing
        (fun st st' => AlikeBy Condition.unnumbered test (condition s'.bump).value ∧
          AlikeBy Statement.allUnnumbered whenTrue s'.bump.thenBlock.value →
            AlikeBy Statement.unnumbered st st')
        u (.conditional (close.stamp s.location) test whenTrue (some otherwise), close.tick)
        s'.bump.thenBlock.state (Parser.conditional s.location s'.bump).result := by
      have hlater := ((hotherwise u).later.of_bump.expect (.keyword .endIf) .conditional).tick
      refine .same id hlater (later_thenBlock _ _) fun hc' => ?_
      rw [conditional_of_else _ ((kind_eq_of_current hc').trans helse)]
      refine .bump (by rw [helse]; decide) hc' ?_
      exact ((hotherwise _).closed (.keyword .endIf) .conditional trivial).tick fun h' h =>
        alike_alternative _ _ _ h.1 h.2 h'
    exact hguarded.andThen hrest fun h h' => h' h
  input h htargets s' hc := (mirrors_input h htargets s' hc).narrow
  output h hfirst hrest s' hc := (mirrors_output h hfirst hrest s' hc).narrow
  stop {stops s} h s' := by
    refine .same id (.refl s) (later_statements stops s') fun hc => ?_
    rw [statements_of_stop (kind_eq_of_current hc ▸ h)]
    exact .pure rfl
  step {stops s t u first rest} h hstart hfirst hrest s' := by
    have hlater := (hfirst s rfl).later.trans (hrest s).later
    refine .same id hlater (later_statements stops s') fun hc => ?_
    rw [statements_of_start (kind_eq_of_current hc ▸ h) (kind_eq_of_current hc ▸ hstart)]
    exact (hfirst s' hc).andThen (hrest _) alike_block_cons
  skip {stops s t rest} h hstart hrest s' := by
    have hlater : (s.fail .statement).Precedes s.stepped :=
      (State.Precedes.refl _).discard.synchronize .statement []
    exact .ofFail (hlater.trans (hrest s).later) (later_statements stops s')

theorem mirrored_statements (stops : List TokenKind) (s s' : State) :
    Mirrors sharing (AlikeBy Statement.allUnnumbered) s (statements stops s).result s'
      (statements stops s').result :=
  mirrored_statement_rules.run mirrored_expression mirrored_condition mirrored_identifiers
    mirrored_moreValues stops s s'

/-- What begins a statement without a block. -/
def simpleStart : List TokenKind := [.identifier, .keyword .input, .keyword .output]

theorem mirrored_simple {s s' : State} (h : s.kind ∈ simpleStart) (hc : s'.current = s.current) :
    Mirrors parting (AlikeBy Statement.unnumbered) s (statement s.current s.bump).result s'
      (statement s'.current s'.bump).result := by
  simp only [simpleStart, List.mem_cons, List.not_mem_nil, or_false] at h
  rcases h with h | h | h
  · rw [statement_of_identifier s.current _ h]
    cases hequals : (s.bump.tick.expect (.punct .equals) .assignment).value with
    | some token =>
      rw [assignment_of_some _ (by rw [hequals]; rfl)]
      exact mirrors_assignment h (by rw [hequals]; rfl) (mirrored_expression _) s' hc
    | none =>
      rw [assignment_of_none _ hequals]
      exact mirrors_target h hequals s' hc
  · rw [statement_of_input s.current _ h, input_result]
    exact mirrors_input h (mirrored_identifiers _) s' hc
  · rw [statement_of_output s.current _ h, output_result]
    exact mirrors_output h (mirrored_expression _) (mirrored_moreValues _) s' hc

end PalChecker.Parser
