import PalChecker.Proofs.Parser.ExpressionRules
import PalChecker.Proofs.Syntax.Canonical

/-!
# Reading what an expression spells

From the spelling of a canonical expression the same expression is read again, and what follows is
left. An operator is read at its own tier, since the operands bind tighter.
-/

namespace PalChecker.Parser

/-! ## What lies ahead -/

/-- No error so far, and `w` is ahead, the closing token included. -/
structure State.Sees (s : State) (w : List Token) : Prop where
  stream : (s.cursor.ahead ++ [s.cursor.closing]).map Token.essence = w
  errors : s.errors = []
  recovering : s.recovering = false

namespace State.Sees

variable {s : State} {x y : Token} {rest : List Token}

theorem tick (h : s.Sees rest) : s.tick.Sees rest := ⟨h.stream, h.errors, h.recovering⟩

theorem essence (h : s.Sees (x :: rest)) : s.current.essence = x := by
  have hstream := h.stream
  cases hahead : s.cursor.ahead with
  | nil =>
    rw [hahead] at hstream
    simp only [current, Cursor.current, hahead]
    exact (List.cons.inj hstream).1
  | cons first more =>
    rw [hahead] at hstream
    simp only [current, Cursor.current, hahead]
    exact (List.cons.inj hstream).1

theorem kind (h : s.Sees (x :: rest)) : s.kind = x.kind := by
  rw [← h.essence, Token.essence_kind]
  rfl

theorem current_kind (h : s.Sees (x :: rest)) : s.current.kind = x.kind := h.kind

theorem current_eq (h : s.Sees (x :: rest)) (hx : x.kind ∈ TokenKind.value) : s.current = x := by
  rw [← h.current_kind] at hx
  exact (Token.essence_of_value hx).symm.trans h.essence

theorem bump (h : s.Sees (x :: rest)) (hx : x.kind ≠ .endOfFile) : s.bump.Sees rest where
  stream := by
    have hahead : s.cursor.ahead ≠ [] := List.ne_nil_of_length_pos (s.remaining_pos (h.kind ▸ hx))
    obtain ⟨first, more, hcons⟩ := List.exists_cons_of_ne_nil hahead
    have hstream := h.stream
    rw [hcons] at hstream
    simp only [cursor_bump, Cursor.advance, hcons]
    exact (List.cons.inj hstream).2
  errors := s.errors_bump.trans h.errors
  recovering := rfl

theorem next_kind (h : s.Sees (x :: y :: rest)) (hx : x.kind ≠ .endOfFile) :
    s.cursor.next.kind = y.kind := by
  rw [← (h.bump hx).kind]
  have hahead : s.cursor.ahead ≠ [] := List.ne_nil_of_length_pos (s.remaining_pos (h.kind ▸ hx))
  obtain ⟨first, more, hcons⟩ := List.exists_cons_of_ne_nil hahead
  simp only [State.kind, Cursor.kind, Cursor.current, Cursor.next, cursor_bump, Cursor.advance, hcons,
    List.tail_cons]

end State.Sees

/-- What was read is `a` but for its stamps, and `w` is ahead. -/
def Rereads {α : Type} (unstamped : α → α) (result : α × State) (a : α) (w : List Token) : Prop :=
  unstamped result.1 = unstamped a ∧ result.2.Sees w

theorem Rereads.cons {α : Type} {unstamped : α → α} {first a : α} {result : List α × State}
    {more : List α} {w : List Token} (hfirst : unstamped first = unstamped a)
    (h : Rereads (List.map unstamped) result more w) :
    Rereads (List.map unstamped) (first :: result.1, result.2) (a :: more) w :=
  ⟨List.cons_eq_cons.mpr ⟨hfirst, h.1⟩, h.2⟩

theorem sees_expectAny (kinds : List TokenKind) {s : State} {x : Token} {rest : List Token}
    (n : Nonterminal) (h : s.Sees (x :: rest)) (hx : x.kind ∈ kinds) (heof : .endOfFile ∉ kinds) :
    (s.expectAny kinds n).value = some s.current ∧ (s.expectAny kinds n).state.Sees rest := by
  obtain ⟨hvalue, hstate⟩ := Prod.mk.inj (State.expectAny_of_mem n (h.kind ▸ hx : s.kind ∈ kinds))
  rw [hvalue, hstate]
  exact ⟨rfl, h.bump fun hx' => heof (hx' ▸ hx)⟩

theorem sees_expect {k : TokenKind} {s : State} {rest : List Token} (n : Nonterminal)
    (h : s.Sees (.fixed k :: rest)) (hk : k.IsFixed) :
    (s.expect k n).value = some s.current ∧ (s.expect k n).state.Sees rest :=
  sees_expectAny [k] n h (List.mem_singleton.mpr rfl) (mt List.mem_singleton.mp hk.ne_endOfFile.symm)

/-! ## Expressions -/

def ReadsOn (extend : Expr → (s : State) → Parsed Expr s) (result : Expr × State) (e : Expr)
    (w : List Token) : Prop :=
  ∃ (left : Expr) (t : State),
    Rereads Expr.unstamped (left, t) e w ∧ result = (extend left t).result

/-- `e` is read again at each tier it can stand at. -/
structure IsReread (e : Expr) : Prop where
  operand {s : State} {rest : List Token} : e.IsOperand → s.Sees (e.spelling ++ rest) →
    Rereads Expr.unstamped (primary s).result e rest
  factor {s : State} {rest : List Token} : ¬e.IsBinary → s.Sees (e.spelling ++ rest) →
    Rereads Expr.unstamped (factor s).result e rest
  product {s : State} {rest : List Token} : ¬e.IsSum → s.Sees (e.spelling ++ rest) →
    ReadsOn products (term s).result e rest
  sum {s : State} {x : Token} {rest : List Token} : BinaryOp.multiplicative? x.kind = none →
    s.Sees (e.spelling ++ x :: rest) → ReadsOn sums (expression s).result e (x :: rest)

theorem rereads_of_products {result : Expr × State} {e : Expr} {x : Token} {rest : List Token}
    (h : ReadsOn products result e (x :: rest)) (hx : BinaryOp.multiplicative? x.kind = none) :
    Rereads Expr.unstamped result e (x :: rest) := by
  obtain ⟨left, t, hread, hresult⟩ := h
  rw [hresult, products_of_not_multiplicative left (hread.2.kind ▸ hx)]
  exact hread

theorem rereads_of_sums {result : Expr × State} {e : Expr} {x : Token} {rest : List Token}
    (h : ReadsOn sums result e (x :: rest)) (hx : BinaryOp.additive? x.kind = none) :
    Rereads Expr.unstamped result e (x :: rest) := by
  obtain ⟨left, t, hread, hresult⟩ := h
  rw [hresult, sums_of_not_additive left (hread.2.kind ▸ hx)]
  exact hread

theorem readsOn_products {s : State} {e : Expr} {rest : List Token}
    (h : Rereads Expr.unstamped (factor s).result e rest) :
    ReadsOn products (term s).result e rest :=
  ⟨_, _, h, term_result s⟩

theorem readsOn_sums {s : State} {e : Expr} {x : Token} {rest : List Token}
    (h : ReadsOn products (term s).result e (x :: rest))
    (hx : BinaryOp.multiplicative? x.kind = none) :
    ReadsOn sums (expression s).result e (x :: rest) :=
  ⟨_, _, rereads_of_products h hx, expression_result s⟩

namespace IsReread

theorem of_factor {e : Expr}
    (operand : ∀ {s : State} {rest : List Token}, e.IsOperand → s.Sees (e.spelling ++ rest) →
      Rereads Expr.unstamped (primary s).result e rest)
    (factor : ∀ {s : State} {rest : List Token}, s.Sees (e.spelling ++ rest) →
      Rereads Expr.unstamped (Parser.factor s).result e rest) : IsReread e where
  operand := operand
  factor _ h := factor h
  product _ h := readsOn_products (factor h)
  sum hx h := readsOn_sums (readsOn_products (factor h)) hx

theorem of_operand {e : Expr}
    (start : ∀ {s : State} {rest : List Token}, s.Sees (e.spelling ++ rest) →
      s.kind ∈ TokenKind.operandStart)
    (operand : ∀ {s : State} {rest : List Token}, s.Sees (e.spelling ++ rest) →
      Rereads Expr.unstamped (primary s).result e rest) : IsReread e := by
  refine .of_factor (fun _ h => operand h) fun h => ?_
  rw [factor_of_not_sign (Sign.ofKind?_of_operandStart (start h))]
  exact operand h

theorem value {stamp : Stamp} {token : Token} (htoken : token.kind ∈ TokenKind.value) :
    IsReread (.value stamp token) := by
  have start {s : State} {rest : List Token} (h : s.Sees (token :: rest)) :
      s.kind ∈ TokenKind.value := h.kind ▸ htoken
  refine .of_operand (fun h => TokenKind.mem_operandStart_iff.mpr (Or.inl (start h))) ?_
  intro s rest (h : s.Sees (token :: rest))
  have hparen : s.current.kind ≠ .punct .lparen := by
    intro hparen
    have := start h
    rw [show s.kind = .punct .lparen from hparen] at this
    exact absurd this (by decide)
  rw [primary_of_operandStart (TokenKind.mem_operandStart_iff.mpr (Or.inl (start h))),
    operand_of_ne_lparen _ _ hparen, h.current_eq htoken]
  refine ⟨rfl, (h.bump ?_).tick⟩
  rintro heof
  rw [heof] at htoken
  exact absurd htoken (by decide)

theorem group {stamp : Stamp} {inner : Expr} (hinner : IsReread inner) :
    IsReread (.group stamp inner) := by
  refine .of_operand (fun h => ?_) fun {s rest} h => ?_
  · rw [h.kind]
    decide
  · simp only [Expr.spelling, List.cons_append, List.append_assoc, List.nil_append] at h
    obtain ⟨hvalue, hstate⟩ := rereads_of_sums (hinner.sum rfl (h.bump (by decide))) rfl
    obtain ⟨-, hclose⟩ := sees_expect .factor hstate trivial
    rw [primary_of_operandStart (by rw [h.kind]; decide), operand_of_lparen _ _ h.current_kind]
    exact ⟨congrArg (Expr.group .blank) hvalue, hclose.tick⟩

theorem unary {stamp : Stamp} {sign : Sign} {operand : Expr} (hshape : operand.IsOperand)
    (hoperand : IsReread operand) : IsReread (.unary stamp sign operand) := by
  refine .of_factor (fun hfalse => absurd hfalse not_false) fun {s rest} h => ?_
  have hsign : Sign.ofKind? s.kind = some sign := by
    rw [h.kind]
    exact Sign.ofKind?_eq_some_iff.mpr rfl
  obtain ⟨hvalue, hstate⟩ := hoperand.operand hshape (h.bump sign.isFixed_kind.ne_endOfFile)
  rw [factor_of_sign hsign, signed_result]
  exact ⟨congrArg (Expr.unary .blank sign) hvalue, hstate.tick⟩

theorem sum_binary {stamp : Stamp} {left right : Expr} {op : BinaryOp} (hop : op.IsAdditive)
    (hleft : IsReread left) (hright : IsReread right) (hshape : ¬right.IsSum) :
    IsReread (.binary stamp left op right) where
  operand hfalse := absurd hfalse not_false
  factor hfalse := absurd trivial hfalse
  product hfalse := absurd hop hfalse
  sum {s x rest} hx h := by
    simp only [Expr.spelling, List.append_assoc, List.cons_append] at h
    have hkind : BinaryOp.additive? (Token.fixed op.kind).kind = some op :=
      BinaryOp.additive?_eq_some_iff.mpr ⟨hop, rfl⟩
    have hnone : BinaryOp.multiplicative? (Token.fixed op.kind).kind = none := by
      cases op with
      | add | sub => rfl
      | mul | div => exact absurd hop not_false
    obtain ⟨first, t, ⟨hfirst, ht⟩, hresult⟩ := hleft.sum hnone h
    obtain ⟨hvalue, hstate⟩ :=
      rereads_of_products (hright.product hshape (ht.bump op.isFixed_kind.ne_endOfFile)) hx
    refine ⟨_, _, ⟨?_, hstate.tick⟩, hresult.trans (sums_of_additive first (ht.kind ▸ hkind))⟩
    change Expr.binary .blank first.unstamped op (term t.bump).value.unstamped = _
    rw [show first.unstamped = left.unstamped from hfirst,
      show (term t.bump).value.unstamped = right.unstamped from hvalue, Expr.unstamped]

theorem product_binary {stamp : Stamp} {left right : Expr} {op : BinaryOp} (hop : ¬op.IsAdditive)
    (hleft : IsReread left) (hright : IsReread right) (hleftShape : ¬left.IsSum)
    (hrightShape : ¬right.IsBinary) : IsReread (.binary stamp left op right) := by
  have product {s : State} {rest : List Token}
      (h : s.Sees ((Expr.binary stamp left op right).spelling ++ rest)) :
      ReadsOn products (term s).result (.binary stamp left op right) rest := by
    simp only [Expr.spelling, List.append_assoc, List.cons_append] at h
    have hkind : BinaryOp.multiplicative? (Token.fixed op.kind).kind = some op :=
      BinaryOp.multiplicative?_eq_some_iff.mpr ⟨hop, rfl⟩
    obtain ⟨first, t, ⟨hfirst, ht⟩, hresult⟩ := hleft.product hleftShape h
    obtain ⟨hvalue, hstate⟩ :=
      hright.factor hrightShape (ht.bump op.isFixed_kind.ne_endOfFile)
    refine ⟨_, _, ⟨?_, hstate.tick⟩,
      hresult.trans (products_of_multiplicative first (ht.kind ▸ hkind))⟩
    change Expr.binary .blank first.unstamped op (Parser.factor t.bump).value.unstamped = _
    rw [show first.unstamped = left.unstamped from hfirst,
      show (Parser.factor t.bump).value.unstamped = right.unstamped from hvalue, Expr.unstamped]
  exact {
    operand hfalse := absurd hfalse not_false
    factor hfalse := absurd trivial hfalse
    product _ h := product h
    sum hx h := readsOn_sums (product h) hx }

end IsReread

theorem isReread_of_canonical {e : Expr} (h : e.Canonical) : IsReread e := by
  induction e with
  | value => exact .value h
  | unary _ _ operand ih => exact .unary h.1 (ih h.2)
  | group _ inner ih => exact .group (ih h)
  | binary _ left op right ihleft ihright =>
    obtain ⟨hleft, hright, hshape⟩ := h
    by_cases hop : op.IsAdditive
    · rw [if_pos hop] at hshape
      exact .sum_binary hop (ihleft hleft) (ihright hright) hshape
    · rw [if_neg hop] at hshape
      exact .product_binary hop (ihleft hleft) (ihright hright) hshape.1 hshape.2
  | error => exact absurd h not_false

theorem rereads_expression {e : Expr} {s : State} {x : Token} {rest : List Token} (h : e.Canonical)
    (hadditive : BinaryOp.additive? x.kind = none)
    (hmultiplicative : BinaryOp.multiplicative? x.kind = none)
    (hs : s.Sees (e.spelling ++ x :: rest)) :
    Rereads Expr.unstamped (expression s).result e (x :: rest) :=
  rereads_of_sums ((isReread_of_canonical h).sum hmultiplicative hs) hadditive

end PalChecker.Parser
