import PalChecker.Proofs.Parser.Moves
import PalChecker.Proofs.Syntax.Spelling

/-!
# What each reading function does

The equations of the reading functions, and from them one rule for each branch. A property of all runs
is proved by giving it for each rule: the conclusions then hold of every run from every state.
-/

namespace PalChecker.Parser

/-- A relation between a state, what is read from it and the state afterwards. -/
abbrev Reading (α : Type) := State → α → State → Prop

/-- It holds of a result from `s`. -/
def Reading.Of {α : Type} (r : Reading α) (s : State) (result : α × State) : Prop :=
  r s result.1 result.2

/-! ## Expressions, by equations -/

/-- Where reading resumes if no operand begins at `s`. -/
abbrev State.resumed (s : State) : State := s.recovered .factor []

theorem mem_factorStart_iff {k : TokenKind} :
    k ∈ TokenKind.factorStart ↔ (∃ sign, Sign.ofKind? k = some sign) ∨ k ∈ TokenKind.operandStart := by
  constructor
  · intro h
    rcases List.mem_append.mp h with h | h
    · exact Or.inr h
    · left
      simp only [TokenKind.sign, List.mem_cons, List.not_mem_nil, or_false] at h
      rcases h with rfl | rfl
      · exact ⟨.plus, rfl⟩
      · exact ⟨.minus, rfl⟩
  · rintro (⟨sign, h⟩ | h)
    · unfold Sign.ofKind? at h
      split at h <;> first | decide | cases h
    · exact List.mem_append_left _ h

theorem expression_result (s : State) :
    (expression s).result = (sums (term s).value (term s).state).result := by
  rw [expression, Parsed.result_since]

theorem sums_of_not_additive {s : State} (left : Expr) (h : BinaryOp.additive? s.kind = none) :
    (sums left s).result = (left, s) := by
  rw [sums]
  split
  · rfl
  · rename_i found hfound
    cases h.symm.trans hfound

theorem sums_of_additive {s : State} {op : BinaryOp} (left : Expr)
    (h : BinaryOp.additive? s.kind = some op) :
    (sums left s).result =
      (sums (.binary ((term s.bump).state.stamp s.location) left op (term s.bump).value)
        (term s.bump).state.tick).result := by
  rw [sums]
  split
  · rename_i hnone
    cases h.symm.trans hnone
  · rename_i found hfound
    cases h.symm.trans hfound
    rw [Parsed.result_since]

theorem term_result (s : State) :
    (term s).result = (products (factor s).value (factor s).state).result := by
  rw [term, Parsed.result_since]

theorem products_of_not_multiplicative {s : State} (left : Expr) (h : BinaryOp.multiplicative? s.kind = none) :
    (products left s).result = (left, s) := by
  rw [products]
  split
  · rfl
  · rename_i found hfound
    cases h.symm.trans hfound

theorem products_of_multiplicative {s : State} {op : BinaryOp} (left : Expr)
    (h : BinaryOp.multiplicative? s.kind = some op) :
    (products left s).result =
      (products (.binary ((factor s.bump).state.stamp s.location) left op (factor s.bump).value)
        (factor s.bump).state.tick).result := by
  rw [products]
  split
  · rename_i hnone
    cases h.symm.trans hnone
  · rename_i found hfound
    cases h.symm.trans hfound
    rw [Parsed.result_since]

theorem signed_result (sign : Sign) (start : Location) (s : State) :
    (signed sign start s).result =
      (.unary ((primary s).state.stamp start) sign (primary s).value, (primary s).state.tick) := by
  rw [signed]
  rfl

theorem factor_of_sign {s : State} {sign : Sign} (h : Sign.ofKind? s.kind = some sign) :
    (factor s).result = (signed sign s.location s.bump).result := by
  rw [factor]
  split
  · rename_i found hfound
    cases h.symm.trans hfound
    rw [Parsed.result_since]
  · rename_i hnone
    cases h.symm.trans hnone

theorem factor_of_not_sign {s : State} (h : Sign.ofKind? s.kind = none) :
    (factor s).result = (primary s).result := by
  rw [factor]
  split
  · rename_i found hfound
    cases h.symm.trans hfound
  · rfl

theorem operand_of_ne_lparen (head : Token) (s : State) (h : head.kind ≠ .punct .lparen) :
    (operand head s).result = (.value (s.stamp head.location) head, s.tick) := by
  rw [operand, if_neg h]
  rfl

theorem operand_of_lparen (head : Token) (s : State) (h : head.kind = .punct .lparen) :
    (operand head s).result =
      (.group (((expression s).state.expect (.punct .rparen) .factor).state.stamp head.location)
          (expression s).value,
        ((expression s).state.expect (.punct .rparen) .factor).state.tick) := by
  rw [operand, if_pos h]
  rfl

theorem primary_of_operandStart {s : State} (h : s.kind ∈ TokenKind.operandStart) :
    (primary s).result = (operand s.current s.bump).result := by
  rw [primary, dif_pos h, Parsed.result_since]

theorem primary_of_resumed {s : State} (h : s.kind ∉ TokenKind.operandStart)
    (hresumed : s.resumed.kind ∈ TokenKind.factorStart) :
    (primary s).result = (factor s.resumed).result := by
  rw [primary, dif_neg h]
  simp only
  split
  · rename_i sign hsign
    rw [Parsed.result_since, factor_of_sign hsign]
  · rename_i hsign
    -- Without a sign a factor is its operand.
    have hoperand : s.resumed.kind ∈ TokenKind.operandStart := by
      refine (mem_factorStart_iff.mp hresumed).resolve_left ?_
      rintro ⟨sign, h'⟩
      exact absurd (hsign.symm.trans h') (by simp)
    rw [dif_pos hoperand, Parsed.result_since, factor_of_not_sign hsign, primary_of_operandStart hoperand]

theorem primary_of_not_resumed {s : State} (h : s.kind ∉ TokenKind.operandStart)
    (hresumed : s.resumed.kind ∉ TokenKind.factorStart) :
    (primary s).result = (.error (s.resumed.stamp s.location), s.resumed.tick) := by
  rw [mem_factorStart_iff, not_or, not_exists] at hresumed
  rw [primary, dif_neg h]
  simp only
  split
  · rename_i sign hsign
    exact absurd hsign (hresumed.1 sign)
  · rw [dif_neg hresumed.2]
    rfl

theorem condition_result (s : State) :
    (condition s).result =
      let left := expression s
      let op := left.state.expectAny TokenKind.relationalOperator .booleanExpr
      let right := expression op.state
      ({ stamp := right.state.stamp s.location
         left := left.value
         op := op.value.bind fun t => RelationalOp.ofKind? t.kind
         right := right.value },
        right.state.tick) := rfl

/-! ## Expressions, by rules -/

/-- The branches of reading an expression. The last two parameters extend what is read so far. -/
structure ExpressionRules (Sum Product Factor Primary : Reading Expr)
    (Sums Products : Expr → Reading Expr) : Prop where
  sum {s t u : State} {first e : Expr} :
    Product s first t → Sums first t e u → Sum s e u
  sums_stop {s : State} {left : Expr} : BinaryOp.additive? s.kind = none → Sums left s left s
  sums_step {s t u : State} {left right e : Expr} {op : BinaryOp} :
    BinaryOp.additive? s.kind = some op → Product s.bump right t →
      Sums (.binary (t.stamp s.location) left op right) t.tick e u → Sums left s e u
  product {s t u : State} {first e : Expr} :
    Factor s first t → Products first t e u → Product s e u
  products_stop {s : State} {left : Expr} :
    BinaryOp.multiplicative? s.kind = none → Products left s left s
  products_step {s t u : State} {left right e : Expr} {op : BinaryOp} :
    BinaryOp.multiplicative? s.kind = some op → Factor s.bump right t →
      Products (.binary (t.stamp s.location) left op right) t.tick e u → Products left s e u
  signed {s t : State} {sign : Sign} {e : Expr} :
    Sign.ofKind? s.kind = some sign → Primary s.bump e t →
      Factor s (.unary (t.stamp s.location) sign e) t.tick
  unsigned {s t : State} {e : Expr} : Sign.ofKind? s.kind = none → Primary s e t → Factor s e t
  value {s : State} : s.kind ∈ TokenKind.value →
    Primary s (.value (s.bump.stamp s.location) s.current) s.bump.tick
  group {s t : State} {e : Expr} : s.kind = .punct .lparen → Sum s.bump e t →
    let close := (t.expect (.punct .rparen) .factor).state
    Primary s (.group (close.stamp s.location) e) close.tick
  retry {s t : State} {e : Expr} : s.kind ∉ TokenKind.operandStart →
    s.resumed.kind ∈ TokenKind.factorStart → Factor s.resumed e t → Primary s e t
  error {s : State} : s.kind ∉ TokenKind.operandStart → s.resumed.kind ∉ TokenKind.factorStart →
    Primary s (.error (s.resumed.stamp s.location)) s.resumed.tick

namespace ExpressionRules

variable {Sum Product Factor Primary : Reading Expr} {Sums Products : Expr → Reading Expr}

theorem of_operand (rules : ExpressionRules Sum Product Factor Primary Sums Products)
    {s : State} (h : s.kind ∈ TokenKind.operandStart)
    (hgroup : s.kind = .punct .lparen → Sum.Of s.bump (expression s.bump).result) :
    Primary.Of s (operand s.current s.bump).result := by
  by_cases hparen : s.kind = .punct .lparen
  · rw [operand_of_lparen s.current s.bump hparen]
    exact rules.group hparen (hgroup hparen)
  · rw [operand_of_ne_lparen s.current s.bump hparen]
    exact rules.value ((TokenKind.mem_operandStart_iff.mp h).resolve_right hparen)

theorem of_signed (rules : ExpressionRules Sum Product Factor Primary Sums Products)
    {s : State} {sign : Sign} (h : Sign.ofKind? s.kind = some sign)
    (hprimary : Primary.Of s.bump (primary s.bump).result) :
    Factor.Of s (Parser.signed sign s.location s.bump).result := by
  rw [signed_result]
  exact rules.signed h hprimary

theorem run (rules : ExpressionRules Sum Product Factor Primary Sums Products) :
    (∀ s, Sum.Of s (expression s).result) ∧
      (∀ left s, (Sums left).Of s (Parser.sums left s).result) ∧
      (∀ s, Product.Of s (term s).result) ∧
      (∀ left s, (Products left).Of s (Parser.products left s).result) ∧
      (∀ s, Factor.Of s (factor s).result) ∧ ∀ s, Primary.Of s (primary s).result := by
  have h := expression.mutual_induct (fun s => Sum.Of s (expression s).result)
    (fun left s => (Sums left).Of s (Parser.sums left s).result)
    (fun s => Product.Of s (term s).result)
    (fun left s => (Products left).Of s (Parser.products left s).result)
    (fun s => Factor.Of s (factor s).result)
    (fun s => Primary.Of s (primary s).result)
    (fun _ _ s => Primary.Of s (primary s).result)
    (fun head s => head.kind = .punct .lparen → Sum.Of s (expression s).result)
    (fun s first rest => by
      rw [expression_result]
      exact rules.sum first rest)
    (fun left s h => by
      rw [sums_of_not_additive left h]
      exact rules.sums_stop h)
    (fun left s op h _ _ right rest => by
      rw [sums_of_additive left h]
      exact rules.sums_step h right rest)
    (fun s first rest => by
      rw [term_result]
      exact rules.product first rest)
    (fun left s h => by
      rw [products_of_not_multiplicative left h]
      exact rules.products_stop h)
    (fun left s op h _ _ right rest => by
      rw [products_of_multiplicative left h]
      exact rules.products_step h right rest)
    (fun s sign h _ operand => by
      rw [factor_of_sign h]
      exact rules.of_signed h operand)
    (fun s h operand => by
      rw [factor_of_not_sign h]
      exact rules.unsigned h operand)
    (fun s h _ group => by
      rw [primary_of_operandStart h]
      exact rules.of_operand h group)
    (fun s h _ sign hsign _ operand => by
      have hresumed := mem_factorStart_iff.mpr (Or.inl ⟨sign, hsign⟩)
      rw [primary_of_resumed h hresumed, factor_of_sign hsign]
      exact rules.retry h hresumed (rules.of_signed hsign operand))
    (fun s h _ hsign hoperand _ group => by
      have hresumed := mem_factorStart_iff.mpr (Or.inr hoperand)
      rw [primary_of_resumed h hresumed, factor_of_not_sign hsign, primary_of_operandStart hoperand]
      exact rules.retry h hresumed (rules.unsigned hsign (rules.of_operand hoperand group)))
    (fun s h _ hsign hoperand => by
      have hresumed : s.resumed.kind ∉ TokenKind.factorStart := by
        rw [mem_factorStart_iff]
        rintro (⟨sign, hsome⟩ | hstart)
        · cases hsign.symm.trans hsome
        · exact hoperand hstart
      rw [primary_of_not_resumed h hresumed]
      exact rules.error h hresumed)
    (fun _ _ _ operand => operand)
    (fun _ _ _ inner _ => inner)
    (fun _ _ h h' => absurd h' h)
  obtain ⟨h1, h2, h3, h4, h5, h6, -, -⟩ := h
  exact ⟨h1, h2, h3, h4, h5, h6⟩

end ExpressionRules

end PalChecker.Parser
