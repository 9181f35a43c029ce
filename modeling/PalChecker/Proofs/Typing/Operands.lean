import PalChecker.Proofs.Typing.Comparisons

/-!
# What stands for an expression

A check of an expression gives the token of its leftmost value, and the type that this token resolves to. Only
what could not be read has no token, and then it has no known type either. So a comparison that says nothing
for want of a token would have said nothing anyway.
-/

namespace PalChecker

/-! ## Signs and parentheses -/

/-- The one has become the other by erasing some of its signs and parentheses, or none. -/
inductive Expr.Erases : Expr → Expr → Prop where
  | value (stamp : Stamp) (token : Token) : Erases (.value stamp token) (.value stamp token)
  | error (stamp : Stamp) : Erases (.error stamp) (.error stamp)
  | binary {left left' right right' : Expr} (stamp : Stamp) (op : BinaryOp) :
    Erases left left' → Erases right right' →
      Erases (.binary stamp left op right) (.binary stamp left' op right')
  | unary {e e' : Expr} (stamp : Stamp) (sign : Sign) :
    Erases e e' → Erases (.unary stamp sign e) (.unary stamp sign e')
  | group {e e' : Expr} (stamp : Stamp) : Erases e e' → Erases (.group stamp e) (.group stamp e')
  | sign {e e' : Expr} (stamp : Stamp) (sign : Sign) : Erases e e' → Erases (.unary stamp sign e) e'
  | parentheses {e e' : Expr} (stamp : Stamp) : Erases e e' → Erases (.group stamp e) e'

namespace Typing

theorem expression_of_erases {e e' : Expr} (h : e.Erases e') (s : State) :
    expression e' s = expression e s := by
  induction h generalizing s with
  | value | error => rfl
  | binary stamp op _ _ ihleft ihright =>
    simp only [expression]
    rw [ihleft, ihright]
  | unary _ _ _ ih | group _ _ ih | sign _ _ _ ih | parentheses _ _ ih => exact ih s

/-! ## The operand -/

section

variable (e : Expr) (s : State)

theorem token_expression : (expression e s).1.token = e.representative? := by rw [fst_expression]

theorem type_expression (seq : SeqNumber) :
    (expression e s).1.type =
      e.representative?.elim .undefined fun token => (s.resolve token seq).1 := by
  rw [fst_expression]
  induction e with
  | value _ token => exact (s.fst_resolve ⟨.start, seq⟩ token).symm
  | unary _ _ _ ih | group _ _ ih => exact ih
  | binary _ _ _ _ ih _ => exact ih
  | error => rfl

theorem exists_token_of_conflicts {expected : ValueType}
    (h : expected.Conflicts (expression e s).1.type) : ∃ token, (expression e s).1.token = some token := by
  rw [token_expression]
  cases htoken : e.representative? with
  | some token => exact ⟨token, rfl⟩
  | none =>
    -- An undefined type conflicts with nothing.
    refine absurd ?_ h.2.1
    rw [type_expression e s 0, htoken]
    rfl

theorem compare_expression_of_conflicts (t : State) (seq : SeqNumber) {expected : ValueType}
    (h : expected.Conflicts (expression e s).1.type) :
    ∃ token, (expression e s).1.token = some token ∧ t.compare expected (expression e s).1 seq =
      t.report seq (.typeConflict token (expression e s).1.type expected) := by
  obtain ⟨token, htoken⟩ := exists_token_of_conflicts e s h
  refine ⟨token, htoken, ?_⟩
  unfold State.compare
  rw [htoken]
  exact if_pos h

end

/-! ## What was noticed before -/

namespace State

variable (s : State)

theorem journal_suffix_resolve (token : Token) (seq : SeqNumber) :
    s.journal <:+ (s.resolve token seq).2.journal := by
  unfold resolve require
  split
  · split
    · exact List.suffix_rfl
    · exact List.suffix_cons _ _
  · exact List.suffix_rfl

theorem journal_suffix_compare (expected : ValueType) (actual : Operand) (seq : SeqNumber) :
    s.journal <:+ (s.compare expected actual seq).journal := by
  unfold compare
  split
  · exact List.suffix_rfl
  · split
    · exact List.suffix_cons _ _
    · exact List.suffix_rfl

end State

theorem journal_suffix_expression (e : Expr) (s : State) : s.journal <:+ (expression e s).2.journal := by
  induction e generalizing s with
  | value stamp token => exact s.journal_suffix_resolve token stamp.seq
  | unary _ _ _ ih | group _ _ ih => exact ih s
  | binary _ _ _ _ ihleft ihright =>
    exact ((ihleft s).trans (ihright _)).trans (State.journal_suffix_compare ..)
  | error => exact List.suffix_rfl

/-! ## Comparisons -/

section

variable (table : SymbolTable)

/-- What the second side of a comparison is compared with. -/
def expectedIn (c : Comparison) : ValueType := c.first.typeIn table

def actualIn (c : Comparison) : Operand := (expression c.second ⟨table, []⟩).1

/-- Each comparison is found whose sides have known types that differ, and there is a token to blame. -/
def AllReported (comparisons : List Comparison) (found : List Finding) : Prop :=
  ∀ c ∈ comparisons, (expectedIn table c).Conflicts (actualIn table c).type →
    ∃ token, (actualIn table c).token = some token ∧
      ⟨c.seq, .typeConflict token (actualIn table c).type (expectedIn table c)⟩ ∈ found

variable {table}

theorem findings_of_comparison {n : Node} {c : Comparison} (h : n.comparison? = some c) :
    n.findings table = (c.second.conflicts table (expectedIn table c)).map fun d => ⟨c.seq, d⟩ := by
  unfold Node.comparison? at h
  split at h
  · next hsides =>
    cases h
    rw [Node.findings, n.diagnostics_of_operand table hsides]
    rfl
  · cases h

theorem mem_findings_of_conflicts {n : Node} {c : Comparison} (hn : n.comparison? = some c)
    (h : (expectedIn table c).Conflicts (actualIn table c).type) :
    ∃ token, (actualIn table c).token = some token ∧
      ⟨c.seq, .typeConflict token (actualIn table c).type (expectedIn table c)⟩ ∈ n.findings table := by
  obtain ⟨token, htoken⟩ := exists_token_of_conflicts c.second ⟨table, []⟩ h
  refine ⟨token, htoken, ?_⟩
  have hactual : actualIn table c = ⟨c.second.typeIn table, c.second.representative?⟩ :=
    fst_expression c.second ⟨table, []⟩
  have hrepresentative : c.second.representative? = some token := (token_expression ..).symm.trans htoken
  rw [hactual] at h ⊢
  have hconflicts : c.second.conflicts table (expectedIn table c) =
      [.typeConflict token (c.second.typeIn table) (expectedIn table c)] := by
    rw [Expr.conflicts, hrepresentative]
    exact if_pos h
  rw [findings_of_comparison hn, hconflicts]
  exact List.mem_singleton_self _

end

theorem State.Visits.allReported {s t : State} {nodes : List Node} (h : s.Visits nodes t)
    (hno : ∀ d, .group d ∉ nodes) :
    ∃ added, t.findings = s.findings ++ added ∧
      AllReported s.table (nodes.filterMap Node.comparison?) added := by
  refine ⟨_, h.findings, fun c hc hconflicts => ?_⟩
  obtain ⟨n, hn, hcomparison⟩ := List.mem_filterMap.mp hc
  obtain ⟨token, htoken, hfound⟩ := mem_findings_of_conflicts hcomparison hconflicts
  rw [walk_of_no_group hno]
  exact ⟨token, htoken, List.mem_flatMap.mpr ⟨n, hn, hfound⟩⟩

/-! ## Expressions -/

/-- What a check of `e` from `s` gives and leaves. -/
structure Represents (e : Expr) (s : State) : Prop where
  token : (expression e s).1.token = e.representative?
  /-- As the token resolves with the names of `s`, wherever it is looked up. -/
  type : ∀ seq, (expression e s).1.type =
    e.representative?.elim .undefined fun token => (s.resolve token seq).1
  table : (expression e s).2.table = s.table
  journal_kept : s.journal <:+ (expression e s).2.journal
  erased : ∀ e', e.Erases e' → expression e' s = expression e s
  /-- The operand is never passed over for want of a token. -/
  compared : ∀ (t : State) (expected : ValueType) (seq : SeqNumber),
    expected.Conflicts (expression e s).1.type →
      ∃ token, (expression e s).1.token = some token ∧ t.compare expected (expression e s).1 seq =
        t.report seq (.typeConflict token (expression e s).1.type expected)

/-- The leftmost value stands for an expression in every check, and no comparison of an expression, a
condition or an assignment is lost. -/
theorem leftmost_value_stands_for_expression (s : State) :
    (∀ e, Represents e s) ∧
      (∀ e, ∃ added, (expression e s).2.findings = s.findings ++ added ∧
        AllReported s.table e.comparisons added) ∧
      (∀ c, ∃ added, (condition c s).findings = s.findings ++ added ∧
        AllReported s.table c.comparisons added) ∧
      ∀ stamp target value, ∃ added,
        (statement (.assignment stamp target value) s).findings = s.findings ++ added ∧
          AllReported s.table (Statement.assignment stamp target value).comparisons added := by
  refine ⟨fun e => ?_, fun e => ?_, fun c => ?_, fun stamp target value => ?_⟩
  · exact
      { token := token_expression e s
        type := type_expression e s
        table := table_expression e s
        journal_kept := journal_suffix_expression e s
        erased := fun _ h => expression_of_erases h s
        compared := fun t _ seq h => compare_expression_of_conflicts e s t seq h }
  · -- Nothing is declared inside, so what is reported comes from the comparisons.
    rw [← Expr.comparisons_nodes]
    exact (visits_expression e s).allReported fun d => Expr.group_not_mem_nodes d true e
  · rw [← Condition.comparisons_nodes]
    exact (visits_condition c s).allReported fun d => c.group_not_mem_nodes d
  · rw [← Statement.comparisons_nodes]
    exact (visits_assignment stamp target value s).allReported
      fun d => Statement.group_not_mem_nodes d (.assignment stamp target value)

end Typing

end PalChecker
