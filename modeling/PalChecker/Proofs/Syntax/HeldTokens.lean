import PalChecker.Proofs.Syntax.Nodes

/-!
# The tokens that a tree holds

A tree holds the names and the values of a program. In the order of reading they are what its nodes hold, each
node on its own.
-/

namespace PalChecker

/-! ## In the order of reading -/

def Expr.tokens : Expr → List Token
  | value _ token => [token]
  | unary _ _ operand => operand.tokens
  | binary _ left _ right => left.tokens ++ right.tokens
  | group _ inner => inner.tokens
  | error _ => []

def Condition.tokens (c : Condition) : List Token := c.left.tokens ++ c.right.tokens

namespace Statement

mutual

def tokens : Statement → List Token
  | assignment _ target value => target.token :: value.tokens
  | loop _ test body => test.tokens ++ allTokens body
  | conditional _ test whenTrue none => test.tokens ++ allTokens whenTrue
  | conditional _ test whenTrue (some otherwise) =>
    test.tokens ++ allTokens whenTrue ++ allTokens otherwise
  | input _ targets => targets.map Ident.token
  | output _ values => values.flatMap Expr.tokens

def allTokens : List Statement → List Token
  | [] => []
  | first :: rest => first.tokens ++ allTokens rest

end

end Statement

def Declaration.tokens (d : Declaration) : List Token := d.idents.map Ident.token

def Program.tokens (p : Program) : List Token :=
  p.name.toList ++ p.declarations.flatMap Declaration.tokens ++ Statement.allTokens p.statements

/-! ## Node by node -/

/-- The token that a node holds itself. -/
def Node.token? : Node → Option Token
  | ident _ i => some i.token
  | part _ (.value _ token) => some token
  | part _ _ | condition _ | statement _ | group _ => none

theorem Ident.tokens_nodes (checked : Bool) (idents : List Ident) :
    (idents.map (Node.ident checked)).filterMap Node.token? = idents.map Ident.token := by
  rw [List.filterMap_map]
  exact congrFun List.filterMap_eq_map idents

theorem Expr.tokens_nodes (checked : Bool) (e : Expr) :
    (e.nodes checked).filterMap Node.token? = e.tokens := by
  induction e with
  | value | error => rfl
  | unary _ _ _ ih | group _ _ ih => simp [nodes, tokens, Node.token?, ih]
  | binary _ _ _ _ ihleft ihright => simp [nodes, tokens, Node.token?, ihleft, ihright]

theorem Condition.tokens_nodes (c : Condition) : c.nodes.filterMap Node.token? = c.tokens := by
  simp [nodes, tokens, Expr.tokens_nodes, Node.token?]

theorem Expr.tokens_outputNodes (values : List Expr) :
    (outputNodes values).filterMap Node.token? = values.flatMap tokens := by
  rw [outputNodes, List.filterMap_flatMap]
  exact congrArg (List.flatMap · values) (funext fun e => e.tokens_nodes _)

namespace Statement

mutual

theorem tokens_nodes : (st : Statement) → st.nodes.filterMap Node.token? = st.tokens
  | assignment _ target value => by simp [nodes, tokens, Expr.tokens_nodes, Node.token?]
  | loop _ test body => by
    simp [nodes, tokens, Condition.tokens_nodes, tokens_allNodes body, Node.token?]
  | conditional _ test whenTrue none => by
    simp [nodes, tokens, Condition.tokens_nodes, tokens_allNodes whenTrue, Node.token?]
  | conditional _ test whenTrue (some otherwise) => by
    simp [nodes, tokens, Condition.tokens_nodes, tokens_allNodes whenTrue, tokens_allNodes otherwise,
      Node.token?]
  | input _ targets => by
    rw [nodes, tokens, List.filterMap_append, Ident.tokens_nodes]
    exact List.append_nil _
  | output _ values => by
    rw [nodes, tokens, List.filterMap_append, Expr.tokens_outputNodes]
    exact List.append_nil _

theorem tokens_allNodes : (body : List Statement) →
    (allNodes body).filterMap Node.token? = allTokens body
  | [] => rfl
  | first :: rest => by
    rw [allNodes, allTokens, List.filterMap_append, tokens_nodes first, tokens_allNodes rest]

end

end Statement

theorem Declaration.tokens_nodes (d : Declaration) : d.nodes.filterMap Node.token? = d.tokens := by
  rw [nodes, tokens, List.filterMap_append, Ident.tokens_nodes]
  exact List.append_nil _

theorem Program.tokens_eq (p : Program) :
    p.tokens = p.name.toList ++ p.nodes.filterMap Node.token? := by
  rw [tokens, nodes, List.filterMap_append, List.filterMap_flatMap, Statement.tokens_allNodes,
    List.append_assoc, funext Declaration.tokens_nodes]

theorem Program.ident_mem_nodes {p : Program} {d : Declaration} (hd : .group d ∈ p.nodes) {i : Ident}
    (hi : i ∈ d.idents) : .ident false i ∈ p.nodes := by
  rcases List.mem_append.mp hd with hd | hd
  · obtain ⟨d', hd', hmem⟩ := List.mem_flatMap.mp hd
    rcases List.mem_append.mp hmem with hmem | hmem
    · obtain ⟨_, -, hident⟩ := List.mem_map.mp hmem
      cases hident
    · cases List.mem_singleton.mp hmem
      exact List.mem_append_left _ (List.mem_flatMap.mpr ⟨d, hd', List.mem_append_left _ (List.mem_map_of_mem hi)⟩)
  · exact absurd hd (Statement.group_not_mem_allNodes d p.statements)

end PalChecker
