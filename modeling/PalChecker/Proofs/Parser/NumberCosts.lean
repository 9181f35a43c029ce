import PalChecker.Proofs.EndOfFile
import PalChecker.Proofs.Parser.Budget

/-!
# What numbers cost

A token that is consumed pays for five numbers. One of them is put aside for the next error, since no other
is reported before a token is consumed again; the rest covers the nodes, those included that stand for what
is missing.
-/

namespace PalChecker.Parser

/-! ## What is not paid for -/

namespace State

/-- How many numbers the next error takes: none, if it is not reported. -/
def errorCost (s : State) : Nat := if s.recovering then 0 else 1

theorem errorCost_of_recovering {s : State} (h : s.recovering = true) : s.errorCost = 0 := if_pos h

theorem issued_fail (n : Nonterminal) (s : State) : (s.fail n).issued = s.issued + s.errorCost := by
  unfold errorCost
  cases hs : s.recovering with
  | true => exact issued_fail_of_recovering n hs
  | false => exact issued_fail_of_not_recovering n hs

/-- The numbers handed out, and what the next error takes, less what is paid for. -/
def unpaid (s : State) : Int := s.issued + s.errorCost - 5 * s.consumed

theorem unpaid_tick (s : State) : s.tick.unpaid = s.unpaid + 1 := by
  have hseq : s.tick.issued = s.issued + 1 := rfl
  have hcost : s.tick.errorCost = s.errorCost := rfl
  have hconsumed : s.tick.consumed = s.consumed := rfl
  rw [unpaid, unpaid, hseq, hcost, hconsumed]
  omega

theorem unpaid_bump (s : State) : s.bump.unpaid ≤ s.unpaid - 4 := by
  have hcost : s.bump.errorCost = 1 := rfl
  rw [unpaid, unpaid, consumed_bump, issued_bump, hcost]
  omega

theorem unpaid_fail (n : Nonterminal) (s : State) : (s.fail n).unpaid = s.unpaid := by
  rw [unpaid, unpaid, consumed_fail, issued_fail, errorCost_of_recovering (recovering_fail n s)]
  omega

theorem unpaid_discard (s : State) : s.discard.unpaid = s.unpaid := by
  rw [unpaid, unpaid, consumed_discard]
  rfl

theorem unpaid_synchronize (n : Nonterminal) (extra : List TokenKind) (s : State) :
    (s.synchronize n extra).unpaid = s.unpaid := by
  rw [unpaid, unpaid, consumed_synchronize]
  rfl

/-- Between `s` and `t` no more than `k` numbers come to be unpaid. -/
def Spends (s : State) (k : Int) (t : State) : Prop := t.unpaid ≤ s.unpaid + k

namespace Spends

variable {s t u : State} {j k : Int}

theorem refl (s : State) : s.Spends 0 s := Int.le_of_eq (Int.add_zero _).symm

theorem trans (h : s.Spends j t) (h' : t.Spends k u) : s.Spends (j + k) u := by
  unfold Spends at *
  omega

theorem weaken (h : s.Spends j t) (hk : j ≤ k) : s.Spends k t := by
  unfold Spends at *
  omega

theorem tick (h : s.Spends k t) : s.Spends (k + 1) t.tick := by
  unfold Spends at *
  rw [unpaid_tick]
  omega

theorem consume (h : s.bump.Spends k t) : s.Spends (k - 4) t := by
  have := s.unpaid_bump
  unfold Spends at *
  omega

theorem fail (h : s.Spends k t) (n : Nonterminal) : s.Spends k (t.fail n) := by
  unfold Spends
  rwa [unpaid_fail]

theorem discard (h : s.Spends k t) : s.Spends k t.discard := by
  unfold Spends
  rwa [unpaid_discard]

theorem synchronize (h : s.Spends k t) (n : Nonterminal) (extra : List TokenKind) :
    s.Spends k (t.synchronize n extra) := by
  unfold Spends
  rwa [unpaid_synchronize]

theorem recovered (h : s.Spends k t) (n : Nonterminal) (kinds : List TokenKind) :
    s.Spends k (t.recovered n kinds) := (h.fail n).synchronize n kinds

theorem expectAny_value (kinds : List TokenKind) (n : Nonterminal) (s : State) :
    s.Spends (-4 * (s.expectAny kinds n).value.toList.length) (s.expectAny kinds n).state := by
  have hrecovered := (refl s).recovered n kinds
  refine expectAny_rule (P := fun value t => s.Spends (-4 * value.toList.length) t) n ?_ ?_ fun _ => hrecovered
  · exact fun _ => (refl s.bump).consume
  · exact fun _ => hrecovered.trans (refl _).consume

theorem expectAny (h : s.Spends k t) (kinds : List TokenKind) (n : Nonterminal) :
    s.Spends k (t.expectAny kinds n).state := (h.trans (expectAny_value kinds n t)).weaken (by omega)

theorem expect (h : s.Spends k t) (kind : TokenKind) (n : Nonterminal) :
    s.Spends k (t.expect kind n).state := h.expectAny [kind] n

theorem expect_of_some {kind : TokenKind} {n : Nonterminal} {token : Token}
    (h : (s.expect kind n).value = some token) : s.Spends (-4) (s.expect kind n).state := by
  refine (expectAny_value [kind] n s).weaken ?_
  rw [show (s.expectAny [kind] n).value = some token from h]
  exact Int.le_refl _

end Spends

end State

/-! ## What reading spends -/

abbrev Spending (k : Int) {α : Type} : Reading α := fun s _ t => s.Spends k t

theorem spending_expression_rules :
    ExpressionRules (Spending 1) (Spending 1) (Spending 1) (Spending 1) (fun _ => Spending 0)
      fun _ => Spending 0 where
  sum first rest := first.trans rest
  sums_stop {s _} _ := .refl s
  sums_step _ right rest := (right.consume.tick.trans rest).weaken (by decide)
  product first rest := first.trans rest
  products_stop {s _} _ := .refl s
  products_step _ right rest := (right.consume.tick.trans rest).weaken (by decide)
  signed _ operand := operand.consume.tick.weaken (by decide)
  unsigned _ operand := operand
  value {s} _ := (State.Spends.refl s.bump).consume.tick.weaken (by decide)
  group _ inner := (inner.consume.expect _ _).tick.weaken (by decide)
  retry {s _ _} _ _ factor := ((State.Spends.refl s).recovered .factor []).trans factor
  error {s} _ _ := ((State.Spends.refl s).recovered .factor []).tick

/-- Reading names costs nothing, and pays for more if there is one at once. -/
abbrev SpendingNames {α : Type} : Reading α := fun s _ t =>
  s.Spends 0 t ∧ (s.kind = .identifier → s.Spends (-3) t)

theorem spending_part_rules :
    PartRules (Spending 1) (Spending 3) SpendingNames (Spending 0) SpendingNames (Spending 0) where
  test left right := ((left.expectAny _ _).trans right).tick
  name {s _} := by
    intro name hname
    have hspends := (State.Spends.expect_of_some hname).tick
    exact ⟨hspends.weaken (by decide), fun _ => hspends⟩
  no_name {s} := by
    intro name hname
    refine ⟨(State.Spends.refl s).expect _ _, fun hkind => ?_⟩
    obtain ⟨hvalue, -⟩ := Prod.mk.inj (State.expectAny_of_mem .identList (List.mem_singleton.mpr hkind))
    cases hvalue.symm.trans hname
  names_stop {s} _ := .refl s
  names_step _ first rest := (first.1.consume.trans rest).weaken (by decide)
  names first rest := ⟨first.1.trans rest, fun hkind => (first.2 hkind).trans rest⟩
  values_stop {s} _ := .refl s
  values_step _ first rest := (first.consume.trans rest).weaken (by decide)

theorem spends_stepped (s : State) : s.Spends 0 s.stepped :=
  ((State.Spends.refl s).fail .statement).discard.synchronize .statement []

/-- The first token of a statement pays for the whole of it. -/
theorem spending_statement_rules :
    StatementRules (Spending 1) (Spending 3) SpendingNames (Spending 0) (Spending 0) fun _ => Spending 0 where
  assignment {s _ _} _ _ value :=
    (((State.Spends.refl s.bump).tick.expect _ _).consume.trans value).tick.weaken (by decide)
  target {s} _ _ := ((State.Spends.refl s.bump).tick.expect _ _).tick.tick.consume.weaken (by decide)
  loop _ test body := ((test.expect _ _).trans body).expect _ _ |>.tick.consume
  conditional _ test whenTrue _ := ((test.expect _ _).trans whenTrue).expect _ _ |>.tick.consume
  alternative _ test whenTrue _ otherwise :=
    (((test.expect _ _).trans whenTrue).trans otherwise.consume).expect _ _ |>.tick.consume.weaken (by decide)
  input _ targets := targets.1.tick.consume.weaken (by decide)
  output _ first rest := (first.trans rest).tick.consume.weaken (by decide)
  stop {_ s} _ := .refl s
  step _ _ first rest := first.trans rest
  skip {_ s _ _} _ _ rest := (spends_stepped s).trans rest

theorem spends_untyped (s : State) : s.Spends 0 s.untyped := by
  have hfail := (State.Spends.refl s).fail .type
  exact (State.dropName_rule (P := s.Spends 0) hfail fun _ => hfail.discard).synchronize .type []

theorem spending_declaration_rules :
    DeclarationRules SpendingNames (Spending 0)
      (fun s _ t => s.Spends 1 t ∧ (s.kind = .identifier → s.Spends 0 t)) (Spending 0) (Spending 1) where
  real {s} _ := (State.Spends.refl s.bump).consume.weaken (by decide)
  integer {s} _ := (State.Spends.refl s.bump).consume.weaken (by decide)
  no_type {s} _ _ := spends_untyped s
  group names type :=
    ⟨((names.1.expect _ _).trans type).tick,
      fun hkind => (((names.2 hkind).expect _ _).trans type).tick.weaken (by decide)⟩
  stop {s} _ := .refl s
  step h first rest := (first.2 h.1).trans rest
  groups first rest := first.1.trans rest

/-! ## Programs -/

theorem State.Spends.filled {s t : State} {k : Int} (h : s.Spends k t) (body : List Statement) :
    s.Spends k (t.filled body) := filled_rule (P := s.Spends k) body h (h.fail .statement)

theorem State.Spends.ended {s t : State} {k : Int} (h : s.Spends k t) : s.Spends k t.ended :=
  ended_rule (P := s.Spends k) h (h.fail .program)

theorem spends_expression (s : State) : (Spending 1).Of s (expression s).result :=
  spending_expression_rules.run.1 s

theorem spends_statements (stops : List TokenKind) (s : State) :
    (Spending 0).Of s (statements stops s).result :=
  spending_statement_rules.run spends_expression (spending_part_rules.run_test spends_expression)
    spending_part_rules.run_names (spending_part_rules.run_moreValues spends_expression) stops s

theorem spends_parse (tokens : List Token) : (State.ofTokens tokens).Spends 1 (parse tokens).final := by
  refine parse_rule (Spending 1) (Spending 0) (Spending 1)
    (spending_declaration_rules.run spending_part_rules.run_names) (spends_statements _) ?_ tokens
  intro s t u ds ss name groups block
  have hheader : s.Spends 0 (name.state.expect (.keyword .withDecls) .program).state :=
    (((State.Spends.refl s).expect _ _).expect _ _).expect _ _
  exact ((((hheader.trans groups).expect _ _).trans block).filled ss |>.expect _ _).ended

theorem consumed_parse_le (tokens : List Token) :
    (parse tokens).final.consumed ≤ (Token.beforeEnd tokens).length := by
  have hlength := (passed_prefix_beforeEnd tokens).length_le
  have hcount : (parse tokens).final.consumed ≤ (parse tokens).final.fates.length := List.count_le_length
  rw [List.length_map] at hlength
  exact Nat.le_trans hcount (Nat.le_trans (Nat.le_of_eq (List.length_map _)) hlength)

theorem issued_parse_le (tokens : List Token) :
    (parse tokens).final.issued ≤ 5 * (Token.beforeEnd tokens).length + 2 := by
  have hspends := spends_parse tokens
  have hconsumed := consumed_parse_le tokens
  have hstart : (State.ofTokens tokens).unpaid = 1 := rfl
  unfold State.Spends at hspends
  rw [hstart, State.unpaid] at hspends
  omega

/-- With so few tokens the counter does not come to its end. -/
theorem not_overflows_of_length_le {tokens : List Token}
    (h : (Token.beforeEnd tokens).length ≤ 858993458) : ¬(parse tokens).Overflows := by
  have hle := issued_parse_le tokens
  have hsize : UInt32.size = 4294967296 := rfl
  unfold Outcome.Overflows
  omega

end PalChecker.Parser
