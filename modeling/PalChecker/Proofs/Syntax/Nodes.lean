import PalChecker.Syntax.Tree

/-!
# The nodes of a tree

Each node comes after its parts, in the order in which a parse completes them.
-/

namespace PalChecker

/-- A numbered node. A name or a part of an expression may be there without being checked: a name that
is declared, or a part of an output value that is a single operand. -/
inductive Node where
  | ident (checked : Bool) (i : Ident)
  | part (checked : Bool) (e : Expr)
  | condition (c : Condition)
  | statement (s : Statement)
  | group (d : Declaration)

namespace Node

def seq : Node → SeqNumber
  | ident _ i => i.stamp.seq
  | part _ e => e.stamp.seq
  | condition c => c.stamp.seq
  | statement s => s.stamp.seq
  | group d => d.stamp.seq

end Node

def Expr.nodes (checked : Bool) : Expr → List Node
  | value stamp token => [.part checked (value stamp token)]
  | unary stamp sign operand => operand.nodes checked ++ [.part checked (unary stamp sign operand)]
  | binary stamp left op right =>
    left.nodes checked ++ right.nodes checked ++ [.part checked (binary stamp left op right)]
  | group stamp inner => inner.nodes checked ++ [.part checked (group stamp inner)]
  | error stamp => [.part checked (error stamp)]

def Condition.nodes (c : Condition) : List Node :=
  c.left.nodes true ++ c.right.nodes true ++ [.condition c]

/-- The parts of output values. A value is checked unless it is a single operand. -/
def Expr.outputNodes (values : List Expr) : List Node :=
  values.flatMap fun e => e.nodes (decide ¬e.IsSingle)

namespace Statement

mutual

def nodes : Statement → List Node
  | assignment stamp target value =>
    .ident true target :: (value.nodes true ++ [.statement (assignment stamp target value)])
  | loop stamp test body => test.nodes ++ allNodes body ++ [.statement (loop stamp test body)]
  | conditional stamp test whenTrue none =>
    test.nodes ++ allNodes whenTrue ++ [.statement (conditional stamp test whenTrue none)]
  | conditional stamp test whenTrue (some otherwise) =>
    test.nodes ++ allNodes whenTrue ++ allNodes otherwise ++
      [.statement (conditional stamp test whenTrue (some otherwise))]
  | input stamp targets => targets.map (.ident true) ++ [.statement (input stamp targets)]
  | output stamp values => Expr.outputNodes values ++ [.statement (output stamp values)]

def allNodes : List Statement → List Node
  | [] => []
  | first :: rest => first.nodes ++ allNodes rest

end

end Statement

/-! ## Groups and conditions -/

theorem Expr.exists_part_of_mem_nodes {n : Node} {checked : Bool} {e : Expr} (h : n ∈ e.nodes checked) :
    ∃ part, n = .part checked part := by
  induction e with
  | value | error => exact ⟨_, List.mem_singleton.mp h⟩
  | unary _ _ _ ih | group _ _ ih =>
    rcases List.mem_append.mp h with h | h
    · exact ih h
    · exact ⟨_, List.mem_singleton.mp h⟩
  | binary _ _ _ _ ihleft ihright =>
    rcases List.mem_append.mp h with h | h
    · exact (List.mem_append.mp h).elim ihleft ihright
    · exact ⟨_, List.mem_singleton.mp h⟩

theorem Expr.group_not_mem_nodes (d : Declaration) (checked : Bool) (e : Expr) :
    .group d ∉ e.nodes checked := by
  intro h
  obtain ⟨_, hpart⟩ := exists_part_of_mem_nodes h
  cases hpart

theorem Expr.condition_not_mem_nodes (c : Condition) (checked : Bool) (e : Expr) :
    .condition c ∉ e.nodes checked := by
  intro h
  obtain ⟨_, hpart⟩ := exists_part_of_mem_nodes h
  cases hpart

theorem Condition.group_not_mem_nodes (d : Declaration) (c : Condition) : .group d ∉ c.nodes := by
  simp [nodes, Expr.group_not_mem_nodes]

namespace Statement

mutual

theorem group_not_mem_nodes (d : Declaration) : (s : Statement) → .group d ∉ s.nodes
  | assignment _ _ value => by simp [nodes, Expr.group_not_mem_nodes]
  | loop _ test body => by
    simp [nodes, Condition.group_not_mem_nodes, group_not_mem_allNodes d body]
  | conditional _ test whenTrue none => by
    simp [nodes, Condition.group_not_mem_nodes, group_not_mem_allNodes d whenTrue]
  | conditional _ test whenTrue (some otherwise) => by
    simp [nodes, Condition.group_not_mem_nodes, group_not_mem_allNodes d whenTrue,
      group_not_mem_allNodes d otherwise]
  | input _ _ => by simp [nodes]
  | output _ values => by simp [nodes, Expr.outputNodes, Expr.group_not_mem_nodes]

theorem group_not_mem_allNodes (d : Declaration) : (body : List Statement) → .group d ∉ allNodes body
  | [] => List.not_mem_nil
  | first :: rest => by simp [allNodes, group_not_mem_nodes d first, group_not_mem_allNodes d rest]

end

end Statement

/-! ## Programs -/

def Declaration.nodes (d : Declaration) : List Node := d.idents.map (.ident false) ++ [.group d]

def Program.nodes (p : Program) : List Node :=
  p.declarations.flatMap Declaration.nodes ++ Statement.allNodes p.statements

end PalChecker
