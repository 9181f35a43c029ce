import PalChecker.Proofs.Syntax.Places

/-!
# Expressions with a terminal left out

A parenthesis that is never closed takes in all that follows it in the expression. So wherever a closing
one was left out, one at the end makes an expression again. Without the operator between them two
expressions are one if the second begins with a sign.
-/

namespace PalChecker.Grammar

/-! ## Words of tokens -/

theorem Construct.Reads.derives {c : Construct} {u : List Token} (h : c.Reads u) :
    c.Derives (u.map Token.kind) := by
  rw [← Token.map_kind_essence]
  cases c with
  | program =>
    obtain ⟨p, hp, hspelling⟩ := h
    exact hspelling ▸ derives_program hp
  | group =>
    obtain ⟨d, hd, hspelling⟩ := h
    exact hspelling ▸ derives_group hd
  | statement =>
    obtain ⟨s, hs, hspelling⟩ := h
    exact hspelling ▸ derives_statement hs
  | condition =>
    obtain ⟨c, hc, hspelling⟩ := h
    exact hspelling ▸ derives_condition hc
  | expression =>
    obtain ⟨e, he, hspelling⟩ := h
    exact hspelling ▸ (isDerived_of_canonical he).expression
  | term =>
    obtain ⟨e, ⟨he, hshape⟩, hspelling⟩ := h
    exact hspelling ▸ (isDerived_of_canonical he).term hshape
  | factor =>
    obtain ⟨e, ⟨he, hshape⟩, hspelling⟩ := h
    exact hspelling ▸ (isDerived_of_canonical he).factor hshape

theorem Rule.Reads.derives {r : Rule} {u : List Token} (h : r.Reads Construct.Reads u) :
    Derives r (u.map Token.kind) := by
  induction r generalizing u with
  | token kinds =>
    obtain ⟨t, ht, rfl⟩ := h
    exact .token ht
  | empty =>
    cases h
    exact .empty
  | sequence a b iha ihb =>
    obtain ⟨u, v, hu, hv, rfl⟩ := h
    rw [List.map_append]
    exact .sequence (iha hu) (ihb hv)
  | either a b iha ihb =>
    rcases h with h | h
    · exact .left (iha h)
    · exact .right (ihb h)
  | many body ih =>
    obtain ⟨parts, hparts, rfl⟩ := h
    induction parts with
    | nil => exact .none
    | cons part parts ihparts =>
      obtain ⟨hpart, hparts⟩ := List.forall_mem_cons.mp hparts
      rw [List.flatten_cons, List.map_append]
      exact .more (ih hpart) (ihparts hparts)
  | construct c => exact Construct.Reads.derives h

/-! ## Longer words -/

theorem Derives.many_append {a : Rule} {u v : List TokenKind} (hu : Derives (.many a) u)
    (hv : Derives (.many a) v) : Derives (.many a) (u ++ v) := by
  generalize hr : Rule.many a = r at hu
  induction hu with
  | none =>
    cases hr
    exact hv
  | more hfirst _ _ ih =>
    cases hr
    rw [List.append_assoc]
    exact .more hfirst (ih rfl)
  | token | empty | sequence | left | right | construct => cases hr

theorem Derives.separated_append {separator body : Rule} {u v : List TokenKind}
    (hu : Derives (.separated separator body) u) (hv : Derives (.many (.sequence separator body)) v) :
    Derives (.separated separator body) (u ++ v) := by
  cases hu with
  | sequence hfirst hrest =>
    rw [List.append_assoc]
    exact .sequence hfirst (hrest.many_append hv)

theorem Derives.separated_cons {separator body : Rule} {u v w : List TokenKind} (hu : Derives body u)
    (hv : Derives separator v) (hw : Derives (.separated separator body) w) :
    Derives (.separated separator body) (u ++ (v ++ w)) := by
  cases hw with
  | sequence hfirst hrest =>
    rw [← List.append_assoc v]
    exact .sequence hu (.more (.sequence hv hfirst) hrest)

theorem Derives.separated_extend {separator body : Rule} {u v : List TokenKind}
    (hextend : ∀ w, Derives body w → Derives body (w ++ v)) (h : Derives (.separated separator body) u) :
    Derives (.separated separator body) (u ++ v) := by
  cases h with
  | @sequence _ _ first rest hfirst hrest =>
    -- The induction is on the parts behind the first one.
    generalize hr : Rule.many (.sequence separator body) = r at hrest
    induction hrest generalizing first with
    | none =>
      rw [List.append_nil]
      exact (hextend first hfirst).separated_one
    | more hpart _ _ ih =>
      cases hr
      cases hpart with
      | sequence hseparator hnext =>
        refine .of_eq (.separated_cons hfirst hseparator (ih hnext rfl)) ?_
        simp only [List.append_assoc]
    | token | empty | sequence | left | right | construct => cases hr

theorem Derives.expression_append_terms {e v : List TokenKind} (he : Derives (.construct .expression) e)
    (hv : Derives (.many (.sequence (.token [.punct .plus, .punct .minus]) (.construct .term))) v) :
    Derives (.construct .expression) (e ++ v) := by
  cases he with
  | construct he => exact .construct (he.separated_append hv)

theorem Derives.expression_append_factors {e v : List TokenKind} (he : Derives (.construct .expression) e)
    (hv : Derives (.many (.sequence (.token [.punct .star, .punct .slash]) (.construct .factor))) v) :
    Derives (.construct .expression) (e ++ v) := by
  cases he with
  | construct he =>
    refine .construct (he.separated_extend fun w hw => ?_)
    cases hw with
    | construct hw => exact .construct (hw.separated_append hv)

/-! ## Side by side -/

theorem exists_cons_of_operand {w : List TokenKind} (h : Derives operand w) :
    ∃ k v, w = k :: v ∧ k ∈ TokenKind.operandStart := by
  cases h with
  | left h =>
    cases h with
    | token hk => exact ⟨_, [], rfl, TokenKind.mem_operandStart_iff.mpr (.inl hk)⟩
  | right h =>
    cases h with
    | left h =>
      cases h with
      | @sequence _ _ _ v hparen _ =>
        cases hparen with
        | token hk => exact ⟨_, v, rfl, TokenKind.mem_operandStart_iff.mpr (.inr (List.mem_singleton.mp hk))⟩
    | right h =>
      cases h with
      | token hk => exact absurd hk List.not_mem_nil

/-- The word goes on with its sign where another operand ends, or begins with an operand. -/
def BeginsPart (c : Construct) (w : List TokenKind) : Prop :=
  (∃ k v, w = k :: v ∧ k ∈ TokenKind.sign ∧ c.Derives v) ∨ ∃ k v, w = k :: v ∧ k ∈ TokenKind.operandStart

theorem beginsPart_factor {w : List TokenKind} (h : Construct.factor.Derives w) : BeginsPart .factor w := by
  cases h with
  | construct h =>
    cases h with
    | sequence hsign hoperand =>
      cases hsign with
      | left hsign =>
        cases hsign with
        | token hk => exact .inl ⟨_, _, rfl, hk, .construct (.sequence (.right .empty) hoperand)⟩
      | right hsign =>
        cases hsign
        cases hoperand with
        | sequence hoperand hempty =>
          cases hempty
          obtain ⟨k, v, rfl, hk⟩ := exists_cons_of_operand hoperand
          exact .inr ⟨k, v, List.append_nil _, hk⟩

theorem BeginsPart.append {c d : Construct} {u v : List TokenKind} (h : BeginsPart c u)
    (hderives : ∀ w, c.Derives w → d.Derives (w ++ v)) : BeginsPart d (u ++ v) := by
  rcases h with ⟨k, w, rfl, hk, hw⟩ | ⟨k, w, rfl, hk⟩
  · exact .inl ⟨k, w ++ v, rfl, hk, hderives w hw⟩
  · exact .inr ⟨k, w ++ v, rfl, hk⟩

theorem expression_append_or_operandStart {w : List TokenKind} (h : Construct.expression.Derives w) :
    (∀ u, Construct.expression.Derives u → Construct.expression.Derives (u ++ w)) ∨
      ∃ k v, w = k :: v ∧ k ∈ TokenKind.operandStart := by
  cases h with
  | construct h =>
    cases h with
    | @sequence _ _ first rest hterm hrest =>
      have hterm : BeginsPart .term first := by
        cases hterm with
        | construct hterm =>
          cases hterm with
          | sequence hfactor hmore =>
            exact (beginsPart_factor hfactor).append fun w hw => .construct (.sequence hw hmore)
      -- With a sign in front it can be a further term.
      rcases hterm with ⟨k, v, rfl, hk, hv⟩ | ⟨k, v, rfl, hk⟩
      · exact .inl fun u hu => hu.expression_append_terms (.more (.sequence (.token hk) hv) hrest)
      · exact .inr ⟨k, v ++ rest, rfl, hk⟩

/-! ## One parenthesis missing -/

/-- From a parenthesis on that is not closed, the tokens are an expression. Any expression can stand
there, if one closes it. -/
def Construct.Unclosed (c : Construct) (w : List Token) : Prop :=
  ∃ before inner, w.map Token.kind = before ++ .punct .lparen :: inner ∧
    Construct.expression.Derives inner ∧
      ∀ e, Construct.expression.Derives e →
        c.Derives (before ++ .punct .lparen :: (e ++ [.punct .rparen]))

theorem Construct.Unclosed.closed {c : Construct} {w : List Token} (h : c.Unclosed w) :
    c.Derives (w.map Token.kind ++ [.punct .rparen]) := by
  obtain ⟨before, inner, hw, hinner, hderives⟩ := h
  rw [hw, List.append_assoc, List.cons_append]
  exact hderives inner hinner

theorem Construct.Unclosed.around {name c : Construct} {u v w : List Token} (h : name.Unclosed v)
    (hbefore : ∀ x, name.Derives x → c.Derives (u.map Token.kind ++ x))
    (hafter : ∀ e, Construct.expression.Derives e →
      Construct.expression.Derives (e ++ w.map Token.kind)) : c.Unclosed (u ++ (v ++ w)) := by
  obtain ⟨before, inner, hv, hinner, hderives⟩ := h
  -- The expression inside the open parenthesis goes on with what stands behind.
  refine ⟨u.map Token.kind ++ before, inner ++ w.map Token.kind, ?_, hafter inner hinner,
    fun e he => ?_⟩
  · simp only [List.map_append, hv, List.append_assoc, List.cons_append]
  · rw [List.append_assoc]
    exact hbefore _ (hderives e he)

theorem unclosed_factor {u : List Token} {opening : Token} {v : List Token}
    (hsign : Derives (.optional (.token [.punct .plus, .punct .minus])) (u.map Token.kind))
    (hopening : opening.kind = .punct .lparen) (hv : Construct.expression.Derives (v.map Token.kind)) :
    Construct.factor.Unclosed (u ++ opening :: v) := by
  refine ⟨u.map Token.kind, v.map Token.kind, ?_, hv, fun e he => ?_⟩
  · rw [List.map_append, List.map_cons, hopening]
  · have hgroup := Derives.fixed (.punct .lparen) (.sequence he (derives_fixed (.punct .rparen)).last)
    exact .construct (.sequence hsign (Derives.right (.left hgroup)).last)

theorem unclosed_factor_of_inner {u : List Token} {opening closing : Token} {v : List Token}
    (hsign : Derives (.optional (.token [.punct .plus, .punct .minus])) (u.map Token.kind))
    (hopening : opening.kind = .punct .lparen) (hclosing : closing.kind = .punct .rparen)
    (hv : Construct.expression.Unclosed v) : Construct.factor.Unclosed (u ++ opening :: (v ++ [closing])) := by
  refine unclosed_factor hsign hopening ?_
  rw [List.map_append, List.map_singleton, hclosing]
  exact hv.closed

/-- An operand that lacks a parenthesis leaves open all that stands around it. -/
theorem exists_altered_operand {missing : Construct → List TokenKind → Prop}
    {altered : Construct → List Token → Prop} {c name : Construct} {ops : List TokenKind} {w : List Token}
    (hrule : c.rule = .separated (.token ops) (.construct name)) (hmissing : ¬missing c ops)
    (hextend : ∀ e v, Construct.expression.Derives e →
      Derives (.many (.sequence (.token ops) (.construct name))) v → Construct.expression.Derives (e ++ v))
    (h : c.rule.Altered missing altered c w) :
    ∃ u, altered name u ∧ (name.Unclosed u → c.Unclosed w) := by
  rw [hrule] at h
  have hderives {w : List TokenKind} (h : Derives (.separated (.token ops) (.construct name)) w) :
      c.Derives w := .construct (hrule ▸ h)
  obtain ⟨first, rest, rfl, ⟨hfirst, hrest⟩ | ⟨hfirst, hrest⟩⟩ := h
  · -- The first operand is altered.
    refine ⟨first, hfirst, fun hu => ?_⟩
    exact hu.around (u := []) (fun x hx => hderives hx.separated_one) fun e he =>
      hextend e _ he hrest.derives
  · obtain ⟨before, _, after, rfl, hbefore, ⟨op, u, rfl, ⟨hop, -⟩ | ⟨hop, hu⟩⟩, hafter⟩ := hrest
    · exact absurd hop.1 hmissing
    · -- A later operand is, and what comes before it is a word of the construct already.
      refine ⟨u, hu, fun hu => ?_⟩
      have hfirst : Construct.Derives name (first.map Token.kind) := Construct.Reads.derives hfirst
      have hbefore := Rule.Reads.derives (r := .many (.sequence (.token ops) (.construct name)))
        ⟨before, hbefore, rfl⟩
      have hafter := Rule.Reads.derives (r := .many (.sequence (.token ops) (.construct name)))
        ⟨after, hafter, rfl⟩
      have hunclosed : c.Unclosed (first ++ before.flatten ++ op ++ (u ++ after.flatten)) := by
        refine hu.around (fun x hx => ?_) fun e he => hextend e _ he hafter
        have hword := (Derives.sequence hfirst hbefore).separated_snoc hop.derives hx
        simpa only [List.map_append, List.append_assoc] using hderives hword
      simpa only [List.append_assoc] using hunclosed

end PalChecker.Grammar
