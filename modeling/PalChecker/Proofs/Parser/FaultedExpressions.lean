import PalChecker.Proofs.Parser.Faulted
import PalChecker.Proofs.Syntax.Omissions

/-!
# Reading expressions with a terminal left out

An expression that lacks a parenthesis is read to its end, and there the parenthesis is missed. A test
that lacks its operator is read as two expressions with the operator missed in between, or as one with
the operator and all of the right side missed behind.
-/

namespace PalChecker.Parser

open Grammar (Construct)

/-! ## What follows an expression -/

/-- What can follow an expression that stands in no parentheses. -/
def delimiters : List TokenKind :=
  TokenKind.relationalOperator ++ [.punct .comma, .keyword .repeatBody, .keyword .thenBranch] ++
    TokenKind.statementStart ++ TokenKind.blockEnd

theorem additive?_of_delimiter : ∀ k ∈ delimiters, BinaryOp.additive? k = none := by decide

theorem multiplicative?_of_delimiter : ∀ k ∈ delimiters, BinaryOp.multiplicative? k = none := by decide

theorem ne_rparen_of_delimiter : ∀ k ∈ delimiters, k ∉ [TokenKind.punct .rparen] := by decide

theorem mem_syncSet_of_delimiter : ∀ k ∈ delimiters, k ∈ Nonterminal.factor.syncSet := by decide

section

variable {P : List Diagnostic → Prop} {s : State} {x : Token} {rest : List Token}

theorem faulted_products (left : Expr) (h : s.Faulted P (x :: rest)) (hx : x.kind ∈ delimiters) :
    (products left s).state.Faulted P (x :: rest) := by
  have hnone : BinaryOp.multiplicative? s.kind = none :=
    h.kind ▸ multiplicative?_of_delimiter x.kind hx
  rw [(Prod.mk.inj (products_of_not_multiplicative left hnone)).2]
  exact h

theorem faulted_sums (left : Expr) (h : s.Faulted P (x :: rest)) (hx : x.kind ∈ delimiters) :
    (sums left s).state.Faulted P (x :: rest) := by
  have hnone : BinaryOp.additive? s.kind = none := h.kind ▸ additive?_of_delimiter x.kind hx
  rw [(Prod.mk.inj (sums_of_not_additive left hnone)).2]
  exact h

theorem faulted_term (h : (factor s).state.Faulted P (x :: rest)) (hx : x.kind ∈ delimiters) :
    (term s).state.Faulted P (x :: rest) := by
  rw [(Prod.mk.inj (term_result s)).2]
  exact faulted_products _ h hx

theorem faulted_expression (h : (term s).state.Faulted P (x :: rest)) (hx : x.kind ∈ delimiters) :
    (expression s).state.Faulted P (x :: rest) := by
  rw [(Prod.mk.inj (expression_result s)).2]
  exact faulted_sums _ h hx

/-! ## A parenthesis left out -/

/-- Wherever `e` can stand, its spelling without the last token, which is a parenthesis, is read up to
what follows. -/
structure LeavesOpen (P : List Diagnostic → Prop) (x : Token) (e : Expr) : Prop where
  operand {s : State} {w rest : List Token} : e.spelling = w ++ [.fixed (.punct .rparen)] →
    e.IsOperand → s.Sees (w ++ x :: rest) → (primary s).state.Faulted P (x :: rest)
  factor {s : State} {w rest : List Token} : e.spelling = w ++ [.fixed (.punct .rparen)] →
    ¬e.IsBinary → s.Sees (w ++ x :: rest) → (factor s).state.Faulted P (x :: rest)
  term {s : State} {w rest : List Token} : e.spelling = w ++ [.fixed (.punct .rparen)] →
    ¬e.IsSum → s.Sees (w ++ x :: rest) → (term s).state.Faulted P (x :: rest)
  expression {s : State} {w rest : List Token} : e.spelling = w ++ [.fixed (.punct .rparen)] →
    s.Sees (w ++ x :: rest) → (expression s).state.Faulted P (x :: rest)

theorem exists_of_append_eq_concat {α : Type} {u v w : List α} {y : α} (h : u ++ v = w ++ [y])
    (hv : v ≠ []) : ∃ w', w = u ++ w' ∧ v = w' ++ [y] := by
  rw [← List.dropLast_concat_getLast hv, ← List.append_assoc] at h
  obtain ⟨hw, hy⟩ := List.append_inj' h rfl
  refine ⟨v.dropLast, hw.symm, ?_⟩
  rw [← hy, List.dropLast_concat_getLast hv]

theorem Expr.spelling_ne_nil {e : Expr} (he : e.Canonical) : e.spelling ≠ [] := by
  cases e with
  | value | unary | binary | group => simp [Expr.spelling]
  | error => exact absurd he not_false

namespace LeavesOpen

variable {e : Expr}

theorem of_factor (hx : x.kind ∈ delimiters)
    (operand : ∀ {s : State} {w rest : List Token}, e.spelling = w ++ [.fixed (.punct .rparen)] →
      e.IsOperand → s.Sees (w ++ x :: rest) → (primary s).state.Faulted P (x :: rest))
    (factor : ∀ {s : State} {w rest : List Token}, e.spelling = w ++ [.fixed (.punct .rparen)] →
      s.Sees (w ++ x :: rest) → (Parser.factor s).state.Faulted P (x :: rest)) : LeavesOpen P x e where
  operand := operand
  factor hw _ h := factor hw h
  term hw _ h := faulted_term (factor hw h) hx
  expression hw h := faulted_expression (faulted_term (factor hw h) hx) hx

theorem value {stamp : Stamp} {token : Token} (htoken : token.kind ∈ TokenKind.value) :
    LeavesOpen P x (.value stamp token) := by
  have hfalse {w : List Token} (hw : [] ++ [token] = w ++ [.fixed (.punct .rparen)]) : False := by
    obtain ⟨-, hlast⟩ := List.append_inj' hw rfl
    rw [List.singleton_inj.mp hlast] at htoken
    exact absurd htoken (by decide)
  exact {
    operand hw := (hfalse hw).elim
    factor hw := (hfalse hw).elim
    term hw := (hfalse hw).elim
    expression hw := (hfalse hw).elim }

theorem group {stamp : Stamp} {inner : Expr} (hP : Admits P .factor) (hx : x.kind ∈ delimiters)
    (hinner : inner.Canonical) : LeavesOpen P x (.group stamp inner) := by
  have primary {s : State} {w rest : List Token}
      (hw : (Expr.group stamp inner).spelling = w ++ [.fixed (.punct .rparen)])
      (h : s.Sees (w ++ x :: rest)) :
      s.kind = .punct .lparen ∧ (primary s).state.Faulted P (x :: rest) := by
    obtain ⟨rfl, -⟩ := List.append_inj' hw rfl
    rw [List.cons_append] at h
    have hlparen : s.kind = .punct .lparen := h.kind
    have hend := (rereads_expression hinner (additive?_of_delimiter x.kind hx)
      (multiplicative?_of_delimiter x.kind hx) (h.bump (by decide))).2
    have hmissing := faulted_expectAny [.punct .rparen] hP hend
      (ne_rparen_of_delimiter x.kind hx) (.inr (mem_syncSet_of_delimiter x.kind hx))
    refine ⟨hlparen, ?_⟩
    rw [(Prod.mk.inj ((primary_of_operandStart (by rw [hlparen]; decide)).trans
      (operand_of_lparen s.current s.bump hlparen))).2]
    exact hmissing.tick
  refine .of_factor hx (fun hw _ h => (primary hw h).2) fun {s w rest} hw h => ?_
  obtain ⟨hlparen, hprimary⟩ := primary hw h
  have hsign : Sign.ofKind? s.kind = none := by
    rw [hlparen]
    rfl
  rw [(Prod.mk.inj (factor_of_not_sign hsign)).2]
  exact hprimary

theorem unary {stamp : Stamp} {sign : Sign} {operand : Expr} (hx : x.kind ∈ delimiters)
    (hcanonical : operand.Canonical) (hshape : operand.IsOperand) (ih : LeavesOpen P x operand) :
    LeavesOpen P x (.unary stamp sign operand) := by
  refine .of_factor hx (fun _ hfalse => absurd hfalse not_false) fun {s w rest} hw h => ?_
  obtain ⟨v, rfl, hv⟩ := exists_of_append_eq_concat (u := [.fixed sign.kind]) hw
    (Expr.spelling_ne_nil hcanonical)
  have hsign : Sign.ofKind? s.kind = some sign := by
    rw [h.kind]
    exact Sign.ofKind?_eq_some_iff.mpr rfl
  have hoperand := ih.operand hv hshape (h.bump sign.isFixed_kind.ne_endOfFile)
  rw [(Prod.mk.inj ((factor_of_sign hsign).trans (signed_result sign s.location s.bump))).2]
  exact hoperand.tick

theorem exists_of_binary {stamp : Stamp} {left right : Expr} {op : BinaryOp} {w : List Token}
    (hright : right.Canonical)
    (hw : (Expr.binary stamp left op right).spelling = w ++ [.fixed (.punct .rparen)]) :
    ∃ v, w = left.spelling ++ .fixed op.kind :: v ∧ right.spelling = v ++ [.fixed (.punct .rparen)] := by
  rw [Expr.spelling, List.append_cons] at hw
  obtain ⟨v, rfl, hv⟩ := exists_of_append_eq_concat hw (Expr.spelling_ne_nil hright)
  exact ⟨v, (List.append_cons ..).symm, hv⟩

theorem sum {stamp : Stamp} {left right : Expr} {op : BinaryOp} (hx : x.kind ∈ delimiters)
    (hop : op.IsAdditive) (hleft : left.Canonical) (hright : right.Canonical) (hshape : ¬right.IsSum)
    (ih : LeavesOpen P x right) : LeavesOpen P x (.binary stamp left op right) where
  operand _ hfalse := absurd hfalse not_false
  factor _ hfalse := absurd trivial hfalse
  term _ hfalse := absurd hop hfalse
  expression {s w rest} hw h := by
    obtain ⟨v, rfl, hv⟩ := exists_of_binary hright hw
    rw [List.append_assoc, List.cons_append] at h
    have hkind : BinaryOp.additive? (Token.fixed op.kind).kind = some op :=
      BinaryOp.additive?_eq_some_iff.mpr ⟨hop, rfl⟩
    have hnone : BinaryOp.multiplicative? (Token.fixed op.kind).kind = none := by
      cases op with
      | add | sub => rfl
      | mul | div => exact absurd hop not_false
    obtain ⟨first, t, ⟨-, ht⟩, hresult⟩ := (isReread_of_canonical hleft).sum hnone h
    have hterm := ih.term hv hshape (ht.bump op.isFixed_kind.ne_endOfFile)
    rw [(Prod.mk.inj (hresult.trans (sums_of_additive first (ht.kind ▸ hkind)))).2]
    exact faulted_sums _ hterm.tick hx

theorem product {stamp : Stamp} {left right : Expr} {op : BinaryOp} (hx : x.kind ∈ delimiters)
    (hop : ¬op.IsAdditive) (hleft : left.Canonical) (hright : right.Canonical)
    (hleftShape : ¬left.IsSum) (hrightShape : ¬right.IsBinary) (ih : LeavesOpen P x right) :
    LeavesOpen P x (.binary stamp left op right) := by
  have hterm {s : State} {w rest : List Token}
      (hw : (Expr.binary stamp left op right).spelling = w ++ [.fixed (.punct .rparen)])
      (h : s.Sees (w ++ x :: rest)) : (Parser.term s).state.Faulted P (x :: rest) := by
    obtain ⟨v, rfl, hv⟩ := exists_of_binary hright hw
    rw [List.append_assoc, List.cons_append] at h
    have hkind : BinaryOp.multiplicative? (Token.fixed op.kind).kind = some op :=
      BinaryOp.multiplicative?_eq_some_iff.mpr ⟨hop, rfl⟩
    obtain ⟨first, t, ⟨-, ht⟩, hresult⟩ := (isReread_of_canonical hleft).product hleftShape h
    have hfactor := ih.factor hv hrightShape (ht.bump op.isFixed_kind.ne_endOfFile)
    rw [(Prod.mk.inj (hresult.trans (products_of_multiplicative first (ht.kind ▸ hkind)))).2]
    exact faulted_products _ hfactor.tick hx
  exact {
    operand _ hfalse := absurd hfalse not_false
    factor _ hfalse := absurd trivial hfalse
    term hw _ h := hterm hw h
    expression hw h := faulted_expression (hterm hw h) hx }

end LeavesOpen

theorem leavesOpen_of_canonical {e : Expr} (hP : Admits P .factor) (hx : x.kind ∈ delimiters)
    (he : e.Canonical) : LeavesOpen P x e := by
  induction e with
  | value => exact .value he
  | unary _ _ operand ih => exact .unary hx he.2 he.1 (ih he.2)
  | group _ inner ih => exact .group hP hx he
  | binary _ left op right _ ihright =>
    obtain ⟨hleft, hright, hshape⟩ := he
    by_cases hop : op.IsAdditive
    · rw [if_pos hop] at hshape
      exact .sum hx hop hleft hright hshape (ihright hright)
    · rw [if_neg hop] at hshape
      exact .product hx hop hleft hright hshape.1 hshape.2 (ihright hright)
  | error => exact absurd he not_false

theorem faulted_of_unclosed {w : List Token} (hP : Admits P .factor)
    (hw : Construct.expression.Unclosed w) (hx : x.kind ∈ delimiters)
    (h : s.Sees (w.map Token.essence ++ x :: rest)) : (expression s).state.Faulted P (x :: rest) := by
  have hclosed : Construct.expression.Derives ((w ++ [Token.fixed (.punct .rparen)]).map Token.kind) := by
    rw [List.map_append]
    exact hw.closed
  obtain ⟨e, he, hspelling⟩ := Grammar.Derives.reads Grammar.reads_rule hclosed _ rfl
  refine (leavesOpen_of_canonical hP hx he).expression ?_ h
  rw [hspelling, List.map_append]
  rfl

/-! ## Tests -/

/-- What follows a test. -/
def testEnd : List TokenKind := [.keyword .repeatBody, .keyword .thenBranch]

theorem delimiter_of_testEnd : ∀ k ∈ testEnd, k ∈ delimiters := by decide

theorem not_mem_operandStart_of_testEnd : ∀ k ∈ testEnd, k ∉ TokenKind.operandStart := by decide

theorem State.Faulted.absent (h : s.Faulted P (x :: rest)) (hs : s.recovering = true)
    (hx : x.kind ∈ testEnd) : (Parser.expression s).state.Faulted P (x :: rest) := by
  have hdelimiter := delimiter_of_testEnd x.kind hx
  have hresumed : s.resumed.Faulted P (x :: rest) :=
    h.recovered hs (.inr (mem_syncSet_of_delimiter x.kind hdelimiter)) []
  have hsign : Sign.ofKind? s.kind = none :=
    h.kind ▸ (by decide : ∀ k ∈ testEnd, Sign.ofKind? k = none) x.kind hx
  have hstart : s.kind ∉ TokenKind.operandStart := h.kind ▸ not_mem_operandStart_of_testEnd x.kind hx
  have hfactor : s.resumed.kind ∉ TokenKind.factorStart :=
    hresumed.kind ▸ (by decide : ∀ k ∈ testEnd, k ∉ TokenKind.factorStart) x.kind hx
  refine faulted_expression (faulted_term ?_ hdelimiter) hdelimiter
  rw [(Prod.mk.inj ((factor_of_not_sign hsign).trans (primary_of_not_resumed hstart hfactor))).2]
  exact hresumed.tick

/-- The test is read up to what follows, with one error. -/
def FaultsTest (P : List Diagnostic → Prop) (w : List Token) : Prop :=
  ∀ {s : State} {x : Token} {rest : List Token}, x.kind ∈ testEnd →
    s.Sees (w.map Token.essence ++ x :: rest) → (condition s).state.Faulted P (x :: rest)

theorem faultsTest_left {u v : List Token} {op : Token} (hP : Admits P .factor)
    (hu : Construct.expression.Unclosed u) (hop : op.kind ∈ TokenKind.relationalOperator)
    (hv : Construct.expression.Reads v) : FaultsTest P (u ++ op :: v) := by
  intro s x rest hx h
  obtain ⟨right, hright, hspelling⟩ := hv
  have hdelimiter := delimiter_of_testEnd x.kind hx
  simp only [List.map_append, List.map_cons, ← hspelling, List.append_assoc, List.cons_append] at h
  have hop : op.essence.kind ∈ TokenKind.relationalOperator := by rwa [Token.essence_kind]
  have hfault := faulted_of_unclosed hP hu (by
    unfold delimiters
    simp only [List.append_assoc]
    exact List.mem_append_left _ hop) h
  have hend := (hfault.expectAny .booleanExpr hop (by decide)).expression hright
    (additive?_of_delimiter x.kind hdelimiter) (multiplicative?_of_delimiter x.kind hdelimiter)
  rw [(Prod.mk.inj (condition_result s)).2]
  exact hend.tick

theorem faultsTest_right {u v : List Token} {op : Token} (hP : Admits P .factor)
    (hu : Construct.expression.Reads u) (hop : op.kind ∈ TokenKind.relationalOperator)
    (hv : Construct.expression.Unclosed v) : FaultsTest P (u ++ op :: v) := by
  intro s x rest hx h
  obtain ⟨left, hleft, hspelling⟩ := hu
  simp only [List.map_append, List.map_cons, ← hspelling, List.append_assoc, List.cons_append] at h
  have hop : op.essence.kind ∈ TokenKind.relationalOperator := by rwa [Token.essence_kind]
  have hread := (rereads_expression hleft
    ((by decide : ∀ k ∈ TokenKind.relationalOperator, BinaryOp.additive? k = none) _ hop)
    ((by decide : ∀ k ∈ TokenKind.relationalOperator, BinaryOp.multiplicative? k = none) _ hop) h).2
  have hfound := (sees_expectAny TokenKind.relationalOperator .booleanExpr hread hop (by decide)).2
  have hend := faulted_of_unclosed hP hv (delimiter_of_testEnd x.kind hx) hfound
  rw [(Prod.mk.inj (condition_result s)).2]
  exact hend.tick

theorem faultsTest_of_expression {w : List Token} (hP : Admits P .booleanExpr)
    (hw : Construct.expression.Reads w) : FaultsTest P w := by
  intro s x rest hx h
  obtain ⟨e, he, hspelling⟩ := hw
  have hdelimiter := delimiter_of_testEnd x.kind hx
  rw [← hspelling] at h
  have hread := (rereads_expression he (additive?_of_delimiter x.kind hdelimiter)
    (multiplicative?_of_delimiter x.kind hdelimiter) h).2
  have hkinds : x.kind ∉ TokenKind.relationalOperator :=
    (by decide : ∀ k ∈ testEnd, k ∉ TokenKind.relationalOperator) _ hx
  have hsync : x.kind ∈ Nonterminal.booleanExpr.syncSet :=
    (by decide : ∀ k ∈ testEnd, k ∈ Nonterminal.booleanExpr.syncSet) _ hx
  have hfault := faulted_expectAny _ hP hread hkinds (.inr hsync)
  rw [(Prod.mk.inj (condition_result s)).2]
  -- The right side is missing as well, but its error is suppressed.
  refine (hfault.absent ?_ hx).tick
  rw [(Prod.mk.inj (State.expectAny_of_missing (hread.kind ▸ hkinds) (.inr (hread.kind ▸ hsync)))).2]
  exact State.recovering_fail _ _

theorem faultsTest_of_operandStart {u v : List Token} {y : Token} (hP : Admits P .booleanExpr)
    (hu : Construct.expression.Reads u) (hy : y.kind ∈ TokenKind.operandStart)
    (hv : Construct.expression.Reads (y :: v)) : FaultsTest P (u ++ y :: v) := by
  intro s x rest hx h
  obtain ⟨left, hleft, hl⟩ := hu
  obtain ⟨right, hright, hr⟩ := hv
  have hdelimiter := delimiter_of_testEnd x.kind hx
  rw [← Token.essence_kind] at hy
  simp only [List.map_append, List.map_cons, ← hl, List.append_assoc, List.cons_append] at h
  have hread := (rereads_expression hleft
    ((by decide : ∀ k ∈ TokenKind.operandStart, BinaryOp.additive? k = none) _ hy)
    ((by decide : ∀ k ∈ TokenKind.operandStart, BinaryOp.multiplicative? k = none) _ hy) h).2
  -- The operator is missed at the operand, with which reading resumes.
  have hfault := faulted_expectAny _ hP hread
    ((by decide : ∀ k ∈ TokenKind.operandStart, k ∉ TokenKind.relationalOperator) _ hy)
    (.inr ((by decide : ∀ k ∈ TokenKind.operandStart, k ∈ Nonterminal.booleanExpr.syncSet) _ hy))
  rw [← List.cons_append, ← List.map_cons, ← hr] at hfault
  rw [(Prod.mk.inj (condition_result s)).2]
  exact (hfault.expression hright (additive?_of_delimiter x.kind hdelimiter)
    (multiplicative?_of_delimiter x.kind hdelimiter)).tick

theorem faultsTest_operator {u v : List Token} (hP : Admits P .booleanExpr)
    (hu : Construct.expression.Reads u) (hv : Construct.expression.Reads v) : FaultsTest P (u ++ v) := by
  intro s x rest hx h
  rcases Grammar.expression_append_or_operandStart (Construct.Reads.derives hv) with hmore | ⟨k, w, hw, hk⟩
  · have hboth : Construct.expression.Derives ((u ++ v).map Token.kind) := by
      rw [List.map_append]
      exact hmore _ (Construct.Reads.derives hu)
    exact faultsTest_of_expression hP (hboth.readsAll _ rfl) hx h
  · obtain ⟨y, v, rfl, rfl, -⟩ := List.map_eq_cons_iff.mp hw
    exact faultsTest_of_operandStart hP hu hk hv hx h

end

end PalChecker.Parser
