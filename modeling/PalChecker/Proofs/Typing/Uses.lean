import PalChecker.Proofs.Typing.Redeclarations

/-!
# Names that are used

Every use of a name is looked up once, where it stands, and it is found undeclared there or not at all. Only
an output value that is a single operand is not looked at.
-/

namespace PalChecker

/-! ## The names that are used -/

/-- The names in an expression, from left to right. -/
def Expr.names : Expr → List Ident
  | value stamp token => if token.kind = .identifier then [⟨stamp, token⟩] else []
  | unary _ _ operand => operand.names
  | binary _ left _ right => left.names ++ right.names
  | group _ inner => inner.names
  | error _ => []

def Condition.names (c : Condition) : List Ident := c.left.names ++ c.right.names

namespace Statement

mutual

/-- The names that a statement uses, in the order of a check. -/
def uses : Statement → List Ident
  | assignment _ target value => target :: value.names
  | loop _ test body => test.names ++ allUses body
  | conditional _ test whenTrue none => test.names ++ allUses whenTrue
  | conditional _ test whenTrue (some otherwise) => test.names ++ allUses whenTrue ++ allUses otherwise
  | input _ targets => targets
  | output _ values => (values.filter fun e => ¬e.IsSingle).flatMap Expr.names

def allUses : List Statement → List Ident
  | [] => []
  | first :: rest => first.uses ++ allUses rest

end

end Statement

/-- Some group declares `name`. -/
def Program.Declares (p : Program) (name : String) : Prop := ∃ x ∈ p.declarators, x.Declares name

instance (p : Program) (name : String) : Decidable (p.Declares name) :=
  inferInstanceAs (Decidable (∃ x ∈ _, _))

/-! ## The uses among the nodes -/

section

variable {α : Type} (f : Node → Option α)

theorem Expr.filterMap_unchecked (hf : ∀ e, f (.part false e) = none) (e : Expr) :
    (e.nodes false).filterMap f = [] := by
  induction e with
  | value | error => simp [nodes, hf]
  | unary _ _ _ ih | group _ _ ih => simp [nodes, hf, ih]
  | binary _ _ _ _ ihleft ihright => simp [nodes, hf, ihleft, ihright]

theorem Expr.filterMap_outputNodes (hf : ∀ e, f (.part false e) = none) (values : List Expr) :
    (outputNodes values).filterMap f =
      (values.filter fun e => ¬e.IsSingle).flatMap fun e => (e.nodes true).filterMap f := by
  induction values with
  | nil => rfl
  | cons e values ih =>
    have hcons : outputNodes (e :: values) = e.nodes (decide ¬e.IsSingle) ++ outputNodes values := rfl
    rw [hcons, List.filterMap_append, ih]
    by_cases hsingle : e.IsSingle
    · simp [hsingle, filterMap_unchecked f hf]
    · simp [hsingle]

end

/-- The name that is looked up at a node. -/
def Node.use? : Node → Option Ident
  | ident true i => some i
  | part true (.value stamp token) => if token.kind = .identifier then some ⟨stamp, token⟩ else none
  | _ => none

theorem Expr.uses_nodes (e : Expr) : (e.nodes true).filterMap Node.use? = e.names := by
  induction e with
  | value stamp token =>
    by_cases hkind : token.kind = .identifier <;> simp [nodes, names, Node.use?, hkind]
  | error => rfl
  | unary _ _ _ ih | group _ _ ih => simp [nodes, names, Node.use?, ih]
  | binary _ _ _ _ ihleft ihright => simp [nodes, names, Node.use?, ihleft, ihright]

theorem Condition.uses_nodes (c : Condition) : c.nodes.filterMap Node.use? = c.names := by
  simp [nodes, names, Expr.uses_nodes, Node.use?]

theorem Expr.uses_outputNodes (values : List Expr) :
    (outputNodes values).filterMap Node.use? = (values.filter fun e => ¬e.IsSingle).flatMap names := by
  rw [filterMap_outputNodes Node.use? fun _ => rfl]
  exact congrArg (List.flatMap · _) (funext uses_nodes)

namespace Statement

mutual

theorem uses_nodes : (st : Statement) → st.nodes.filterMap Node.use? = st.uses
  | assignment _ _ value => by simp [nodes, uses, Expr.uses_nodes, Node.use?]
  | loop _ test body => by
    simp [nodes, uses, Condition.uses_nodes, uses_allNodes body, Node.use?]
  | conditional _ test whenTrue none => by
    simp [nodes, uses, Condition.uses_nodes, uses_allNodes whenTrue, Node.use?]
  | conditional _ test whenTrue (some otherwise) => by
    simp [nodes, uses, Condition.uses_nodes, uses_allNodes whenTrue, uses_allNodes otherwise, Node.use?]
  | input _ targets => by simp [nodes, uses, List.filterMap_map, Node.use?, Function.comp_def]
  | output _ values => by simp [nodes, uses, Expr.uses_outputNodes, Node.use?]

theorem uses_allNodes : (body : List Statement) → (allNodes body).filterMap Node.use? = allUses body
  | [] => rfl
  | first :: rest => by
    rw [allNodes, allUses, List.filterMap_append, uses_nodes first, uses_allNodes rest]

end

end Statement

/-! ## What is found at a node -/

theorem Node.diagnostics_of_operand (table : SymbolTable) {n : Node} {left : Side} {e : Expr}
    (hsides : n.sides? = some (left, .operand e)) :
    n.diagnostics table = e.conflicts table (left.typeIn table) := by
  obtain ⟨e', he', hdiagnostics⟩ : ∃ e', _ ∧ n.diagnostics table = _ := n.diagnostics_of_sides hsides
  cases he'
  exact hdiagnostics

/-- A node that is no group looks a name up, or it compares two sides, or nothing is found there. -/
theorem Node.diagnostics_cases (table : SymbolTable) {n : Node} (hn : ∀ d, n ≠ .group d) :
    (∃ i, n.use? = some i ∧ n.sides? = none ∧ n.seq = i.stamp.seq ∧
      n.diagnostics table = table.undeclared i.token) ∨
    (∃ left e, n.use? = none ∧ n.sides? = some (left, .operand e) ∧
      n.diagnostics table = e.conflicts table (left.typeIn table)) ∨
    (n.use? = none ∧ n.sides? = none ∧ n.diagnostics table = []) := by
  -- A node with two sides looks for conflicts only.
  have hcompared {left : Side} {e : Expr} (huse : n.use? = none)
      (hsides : n.sides? = some (left, .operand e)) :
      ∃ left e, n.use? = none ∧ n.sides? = some (left, .operand e) ∧
        n.diagnostics table = e.conflicts table (left.typeIn table) :=
    ⟨left, e, huse, hsides, n.diagnostics_of_operand table hsides⟩
  cases n with
  | group d => exact absurd rfl (hn d)
  | ident checked i =>
    cases checked with
    | true => exact .inl ⟨i, rfl, rfl, rfl, rfl⟩
    | false => exact .inr (.inr ⟨rfl, rfl, rfl⟩)
  | condition c => exact .inr (.inl (hcompared rfl rfl))
  | statement st =>
    cases st with
    | assignment => exact .inr (.inl (hcompared rfl rfl))
    | loop | conditional | input | output => exact .inr (.inr ⟨rfl, rfl, rfl⟩)
  | part checked e =>
    cases checked with
    | false => exact .inr (.inr ⟨rfl, rfl, rfl⟩)
    | true =>
      cases e with
      | binary => exact .inr (.inl (hcompared rfl rfl))
      | unary | group | error => exact .inr (.inr ⟨rfl, rfl, rfl⟩)
      | value stamp token =>
        by_cases hkind : token.kind = .identifier
        · exact .inl ⟨⟨stamp, token⟩, if_pos hkind, rfl, rfl, if_pos hkind⟩
        · exact .inr (.inr ⟨if_neg hkind, rfl, if_neg hkind⟩)

section

variable {table : SymbolTable}

theorem Node.among_of_undeclared {n : Node} {token : Token}
    (h : n.diagnostics table = table.undeclared token) (fault : Fault) :
    fault.among (n.findings table) = if fault = .undeclared then n.findings table else [] := by
  refine n.among_findings fault fun d hd => ?_
  rw [h] at hd
  rw [mem_undeclared hd]
  rfl

theorem Node.among_of_conflicts {n : Node} {expected : ValueType} {e : Expr}
    (h : n.diagnostics table = e.conflicts table expected) (fault : Fault) :
    fault.among (n.findings table) = if fault = .conflict then n.findings table else [] := by
  refine n.among_findings fault fun d hd => ?_
  rw [h] at hd
  obtain ⟨token, actual, -, rfl⟩ := mem_conflicts hd
  rfl

theorem among_undeclared {nodes : List Node} (hnodes : ∀ d, .group d ∉ nodes) :
    Fault.undeclared.among (nodes.flatMap (Node.findings table)) =
      ((nodes.filterMap Node.use?).filter fun i => table.lookup? i.token.value = none).map
        fun i => ⟨i.stamp.seq, .notDeclared i.token⟩ := by
  induction nodes with
  | nil => rfl
  | cons n nodes ih =>
    have hrest := ih fun d hd => hnodes d (List.mem_cons_of_mem n hd)
    have hn : ∀ d, n ≠ .group d := fun d heq => hnodes d (heq ▸ List.mem_cons_self)
    rw [List.flatMap_cons, Fault.among_append, hrest]
    rcases n.diagnostics_cases table hn with
      ⟨i, huse, -, hseq, hdiagnostics⟩ | ⟨left, e, huse, -, hdiagnostics⟩ | ⟨huse, -, hdiagnostics⟩
    · rw [List.filterMap_cons_some huse, n.among_of_undeclared hdiagnostics, if_pos rfl, Node.findings,
        hdiagnostics, hseq, SymbolTable.undeclared]
      by_cases hnone : table.lookup? i.token.value = none <;> simp [hnone]
    · -- A comparison finds conflicts only.
      rw [List.filterMap_cons_none huse, n.among_of_conflicts hdiagnostics, if_neg (by decide),
        List.nil_append]
    · rw [List.filterMap_cons_none huse, Node.findings, hdiagnostics]
      rfl

end

namespace Typing

theorem lookup_scope_eq_none_iff (p : Program) (name : String) :
    p.scope.lookup? name = none ↔ ¬p.Declares name := by
  rw [(knows_scope p).lookup, Option.map_eq_none_iff, Declarator.first?, List.find?_eq_none]
  simp [Program.Declares]

/-- What is found undeclared is each use of a name that no group declares, once and in order. -/
theorem undeclared_uses_are_found_once (p : Program) :
    Fault.undeclared.among (check p) =
      ((Statement.allUses p.statements).filter fun i => ¬p.Declares i.token.value).map
        fun i => ⟨i.stamp.seq, .notDeclared i.token⟩ := by
  have hnodes : ∀ d, .group d ∉ Statement.allNodes p.statements :=
    fun d => Statement.group_not_mem_allNodes d p.statements
  calc
    _ = Fault.undeclared.among ((Statement.allNodes p.statements).flatMap (Node.findings p.scope)) :=
      filter_check_of_use p (fun fault => fault = .undeclared) rfl
    _ = _ := by
      rw [among_undeclared hnodes, Statement.uses_allNodes]
      simp only [lookup_scope_eq_none_iff]

end Typing

end PalChecker
