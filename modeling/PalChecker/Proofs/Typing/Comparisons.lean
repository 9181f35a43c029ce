import PalChecker.Proofs.Typing.Uses

/-!
# Types that conflict

An expression has the type of its leftmost value. A check compares both sides of each operator, test and
assignment that it looks at, and reports each comparison whose types are known and differ.
-/

namespace PalChecker

/-! ## The comparisons of a program -/

/-- Two sides that are compared, with the number of the node that does so. -/
structure Comparison where
  seq : SeqNumber
  first : Side
  second : Expr

/-- One comparison for each operator, after those of its operands. -/
def Expr.comparisons : Expr → List Comparison
  | value _ _ | error _ => []
  | unary _ _ operand => operand.comparisons
  | binary stamp left _ right =>
    left.comparisons ++ right.comparisons ++ [⟨stamp.seq, .operand left, right⟩]
  | group _ inner => inner.comparisons

def Condition.comparisons (c : Condition) : List Comparison :=
  c.left.comparisons ++ c.right.comparisons ++ [⟨c.stamp.seq, .operand c.left, c.right⟩]

namespace Statement

mutual

/-- The comparisons in a statement, in the order of a check. -/
def comparisons : Statement → List Comparison
  | assignment stamp target value => value.comparisons ++ [⟨stamp.seq, .target target, value⟩]
  | loop _ test body => test.comparisons ++ allComparisons body
  | conditional _ test whenTrue none => test.comparisons ++ allComparisons whenTrue
  | conditional _ test whenTrue (some otherwise) =>
    test.comparisons ++ allComparisons whenTrue ++ allComparisons otherwise
  | input _ _ => []
  | output _ values => (values.filter fun e => ¬e.IsSingle).flatMap Expr.comparisons

def allComparisons : List Statement → List Comparison
  | [] => []
  | first :: rest => first.comparisons ++ allComparisons rest

end

end Statement

/-! ## The types that are compared -/

namespace Program

variable (p : Program)

/-- The type with which a name is declared first. -/
def typeOfName (name : String) : ValueType :=
  (Declarator.first? name p.declarators).elim .undefined fun x => .ofDeclared x.type

def typeOfValue (token : Token) : ValueType :=
  if token.kind = .identifier then p.typeOfName token.value
  else (ValueType.ofLiteral? token.kind).getD .undefined

/-- An expression has the type of its leftmost value. -/
def typeOf : Side → ValueType
  | .target i => p.typeOfName i.token.value
  | .operand e => e.representative?.elim .undefined p.typeOfValue

end Program

namespace Comparison

def Clashes (p : Program) (c : Comparison) : Prop :=
  (p.typeOf c.first).Conflicts (p.typeOf (.operand c.second))

instance (p : Program) (c : Comparison) : Decidable (c.Clashes p) :=
  inferInstanceAs (Decidable (ValueType.Conflicts _ _))

/-- The finding blames the leftmost value of the second side. -/
def Reports (p : Program) (c : Comparison) (f : Finding) : Prop :=
  ∃ token, c.second.representative? = some token ∧
    f = ⟨c.seq, .typeConflict token (p.typeOf (.operand c.second)) (p.typeOf c.first)⟩

end Comparison

/-! ## The comparisons among the nodes -/

def Node.comparison? (n : Node) : Option Comparison :=
  match n.sides? with
  | some (first, .operand second) => some ⟨n.seq, first, second⟩
  | _ => none

theorem Expr.comparisons_nodes (e : Expr) :
    (e.nodes true).filterMap Node.comparison? = e.comparisons := by
  induction e with
  | value | error => rfl
  | unary _ _ _ ih | group _ _ ih => simp [nodes, comparisons, Node.comparison?, Node.sides?, ih]
  | binary _ _ _ _ ihleft ihright =>
    simp [nodes, comparisons, Node.comparison?, Node.sides?, Node.seq, stamp, ihleft, ihright]

theorem Condition.comparisons_nodes (c : Condition) :
    c.nodes.filterMap Node.comparison? = c.comparisons := by
  simp [nodes, comparisons, Expr.comparisons_nodes, Node.comparison?, Node.sides?, Node.seq]

theorem Expr.comparisons_outputNodes (values : List Expr) :
    (outputNodes values).filterMap Node.comparison? =
      (values.filter fun e => ¬e.IsSingle).flatMap comparisons := by
  rw [filterMap_outputNodes Node.comparison? fun _ => rfl]
  exact congrArg (List.flatMap · _) (funext comparisons_nodes)

namespace Statement

mutual

theorem comparisons_nodes : (st : Statement) → st.nodes.filterMap Node.comparison? = st.comparisons
  | assignment _ target value => by
    rw [nodes, List.filterMap_cons_none rfl, List.filterMap_append, Expr.comparisons_nodes]
    rfl
  | loop _ test body => by
    simp [nodes, comparisons, Condition.comparisons_nodes, comparisons_allNodes body, Node.comparison?,
      Node.sides?]
  | conditional _ test whenTrue none => by
    simp [nodes, comparisons, Condition.comparisons_nodes, comparisons_allNodes whenTrue,
      Node.comparison?, Node.sides?]
  | conditional _ test whenTrue (some otherwise) => by
    simp [nodes, comparisons, Condition.comparisons_nodes, comparisons_allNodes whenTrue,
      comparisons_allNodes otherwise, Node.comparison?, Node.sides?]
  | input _ targets => by simp [nodes, comparisons, Node.comparison?, Node.sides?]
  | output _ values => by
    simp [nodes, comparisons, Expr.comparisons_outputNodes, Node.comparison?, Node.sides?]

theorem comparisons_allNodes : (body : List Statement) →
    (allNodes body).filterMap Node.comparison? = allComparisons body
  | [] => rfl
  | first :: rest => by
    rw [allNodes, allComparisons, List.filterMap_append, comparisons_nodes first,
      comparisons_allNodes rest]

end

end Statement

/-! ## What is found at a comparison -/

section

variable {p : Program}

theorem Program.typeOf_scope (p : Program) (name : String) : p.scope.typeOf name = p.typeOfName name := by
  unfold SymbolTable.typeOf typeOfName
  rw [(Typing.knows_scope p).lookup]
  cases Declarator.first? name p.declarators <;> rfl

theorem Program.typeIn_scope (p : Program) (side : Side) : side.typeIn p.scope = p.typeOf side := by
  cases side with
  | target i =>
    rw [Side.typeIn_target]
    exact p.typeOf_scope i.token.value
  | operand e =>
    rw [Side.typeIn_operand]
    induction e with
    | value stamp token =>
      rw [Expr.typeIn, p.typeOf_scope]
      rfl
    | unary _ _ _ ih | group _ _ ih => exact ih
    | binary _ _ _ _ ih _ => exact ih
    | error => rfl

theorem Comparison.Clashes.exists_representative {c : Comparison} (h : c.Clashes p) :
    ∃ token, c.second.representative? = some token := by
  cases htoken : c.second.representative? with
  | some token => exact ⟨token, rfl⟩
  | none =>
    -- The type of an expression without one is not known.
    refine absurd ?_ h.2.1
    simp [Program.typeOf, htoken]

theorem Node.reports_findings {n : Node} {first : Side} {second : Expr}
    (hsides : n.sides? = some (first, .operand second)) :
    List.Forall₂ (Comparison.Reports p) ([⟨n.seq, first, second⟩].filter (·.Clashes p))
      (n.findings p.scope) := by
  unfold Node.findings
  rw [n.diagnostics_of_operand p.scope hsides, p.typeIn_scope, Expr.conflicts, ← Side.typeIn_operand,
    p.typeIn_scope]
  by_cases hclash : (Comparison.mk n.seq first second).Clashes p
  -- A clash needs a known type, so there is a token to blame.
  · obtain ⟨token, htoken⟩ := hclash.exists_representative
    have hreports : Comparison.Reports p ⟨n.seq, first, second⟩
      ⟨n.seq, .typeConflict token (p.typeOf (.operand second)) (p.typeOf first)⟩ := ⟨token, htoken, rfl⟩
    rw [List.filter_cons_of_pos (by simpa using hclash), htoken]
    simp only [if_pos (show ValueType.Conflicts _ _ from hclash)]
    exact .cons hreports .nil
  · rw [List.filter_cons_of_neg (by simpa using hclash)]
    have hnone : ¬(p.typeOf first).Conflicts (p.typeOf (.operand second)) := hclash
    split
    · exact .nil
    · rw [if_neg hnone]
      exact .nil

theorem among_conflict {nodes : List Node} (hnodes : ∀ d, .group d ∉ nodes) :
    List.Forall₂ (Comparison.Reports p) ((nodes.filterMap Node.comparison?).filter (·.Clashes p))
      (Fault.conflict.among (nodes.flatMap (Node.findings p.scope))) := by
  induction nodes with
  | nil => exact .nil
  | cons n nodes ih =>
    have hrest := ih fun d hd => hnodes d (List.mem_cons_of_mem n hd)
    have hn : ∀ d, n ≠ .group d := fun d heq => hnodes d (heq ▸ List.mem_cons_self)
    rw [List.flatMap_cons, Fault.among_append]
    rcases n.diagnostics_cases p.scope hn with
      ⟨i, -, hsides, -, hdiagnostics⟩ | ⟨first, second, -, hsides, hdiagnostics⟩ |
        ⟨-, hsides, hdiagnostics⟩
    · rw [n.among_of_undeclared hdiagnostics, if_neg (by decide), List.nil_append,
        List.filterMap_cons_none (by rw [Node.comparison?, hsides])]
      exact hrest
    · have hcomparison : n.comparison? = some ⟨n.seq, first, second⟩ := by rw [Node.comparison?, hsides]
      rw [n.among_of_conflicts hdiagnostics, if_pos rfl, List.filterMap_cons_some hcomparison,
        ← List.singleton_append, List.filter_append]
      exact List.rel_append (Node.reports_findings hsides) hrest
    · rw [Node.findings, hdiagnostics, List.filterMap_cons_none (by rw [Node.comparison?, hsides])]
      exact hrest

end

/-- Of the comparisons of a program exactly those are reported whose sides have known types that differ, each
once and in order. -/
theorem Typing.clashing_comparisons_are_reported_once (p : Program) :
    List.Forall₂ (Comparison.Reports p)
      ((Statement.allComparisons p.statements).filter (·.Clashes p))
      (Fault.conflict.among (check p)) := by
  have hfilter : Fault.conflict.among (check p) =
      Fault.conflict.among ((Statement.allNodes p.statements).flatMap (Node.findings p.scope)) :=
    filter_check_of_use p (fun fault => fault = .conflict) rfl
  rw [hfilter, ← Statement.comparisons_allNodes]
  exact among_conflict fun d => Statement.group_not_mem_allNodes d p.statements

end PalChecker
