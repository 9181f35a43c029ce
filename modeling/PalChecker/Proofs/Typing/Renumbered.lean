import PalChecker.Proofs.Syntax.Unnumbered
import PalChecker.Proofs.Typing.Walk

/-!
# Numbers do not matter to a check

What is wrong with the names and types of a program does not depend on the numbers of its nodes. They say
only where it belongs among what else is wrong.
-/

namespace PalChecker

/-! ## Nodes without their numbers -/

def Node.unnumbered : Node → Node
  | ident checked i => ident checked i.unnumbered
  | part checked e => part checked e.unnumbered
  | condition c => condition c.unnumbered
  | statement s => statement s.unnumbered
  | group d => group d.unnumbered

namespace Expr

theorem nodes_unnumbered (checked : Bool) (e : Expr) :
    e.unnumbered.nodes checked = (e.nodes checked).map Node.unnumbered := by
  induction e with
  | value | error => rfl
  | unary _ _ _ ih | group _ _ ih =>
    simp only [unnumbered, nodes, List.map_append, ih]
    rfl
  | binary _ _ _ _ ihleft ihright =>
    simp only [unnumbered, nodes, List.map_append, ihleft, ihright]
    rfl

theorem isSingle_unnumbered (e : Expr) : e.unnumbered.IsSingle ↔ e.IsSingle := by
  induction e with
  | value | error | binary => exact Iff.rfl
  | unary _ _ _ ih | group _ _ ih => exact ih

theorem outputNodes_unnumbered (values : List Expr) :
    outputNodes (values.map unnumbered) = (outputNodes values).map Node.unnumbered := by
  unfold outputNodes
  rw [List.flatMap_map, List.map_flatMap]
  refine congrArg (List.flatMap · values) (funext fun e => ?_)
  rw [nodes_unnumbered]
  simp only [isSingle_unnumbered]

theorem representative?_unnumbered (e : Expr) : e.unnumbered.representative? = e.representative? := by
  induction e with
  | value | error => rfl
  | unary _ _ _ ih | group _ _ ih => exact ih
  | binary _ _ _ _ ihleft _ => exact ihleft

theorem typeIn_unnumbered (table : SymbolTable) (e : Expr) :
    e.unnumbered.typeIn table = e.typeIn table := by
  induction e with
  | value | error => rfl
  | unary _ _ _ ih | group _ _ ih => exact ih
  | binary _ _ _ _ ihleft _ => exact ihleft

theorem conflicts_unnumbered (table : SymbolTable) (expected : ValueType) (e : Expr) :
    e.unnumbered.conflicts table expected = e.conflicts table expected := by
  unfold conflicts
  rw [representative?_unnumbered, typeIn_unnumbered]

end Expr

theorem Condition.nodes_unnumbered (c : Condition) :
    c.unnumbered.nodes = c.nodes.map Node.unnumbered := by
  unfold Condition.nodes
  simp only [List.map_append, ← Expr.nodes_unnumbered]
  rfl

namespace Statement

mutual

theorem nodes_unnumbered : (st : Statement) → st.unnumbered.nodes = st.nodes.map Node.unnumbered
  | assignment _ _ value => by
    simp only [unnumbered, nodes, List.map_cons, List.map_append, Expr.nodes_unnumbered]
    rfl
  | loop _ test body => by
    simp only [unnumbered, nodes, List.map_append, Condition.nodes_unnumbered, nodes_allUnnumbered body]
    rfl
  | conditional _ test whenTrue none => by
    simp only [unnumbered, nodes, List.map_append, Condition.nodes_unnumbered,
      nodes_allUnnumbered whenTrue]
    rfl
  | conditional _ test whenTrue (some otherwise) => by
    simp only [unnumbered, nodes, List.map_append, Condition.nodes_unnumbered,
      nodes_allUnnumbered whenTrue, nodes_allUnnumbered otherwise]
    rfl
  | input _ targets => by
    simp only [unnumbered, nodes, List.map_append, List.map_map]
    rfl
  | output _ values => by
    simp only [unnumbered, nodes, List.map_append, Expr.outputNodes_unnumbered]
    rfl

theorem nodes_allUnnumbered : (body : List Statement) →
    allNodes (allUnnumbered body) = (allNodes body).map Node.unnumbered
  | [] => rfl
  | first :: rest => by
    rw [allUnnumbered, allNodes, allNodes, List.map_append, nodes_unnumbered first,
      nodes_allUnnumbered rest]

end

end Statement

theorem Declaration.nodes_unnumbered (d : Declaration) :
    d.unnumbered.nodes = d.nodes.map Node.unnumbered := by
  simp only [unnumbered, nodes, List.map_append, List.map_map]
  rfl

theorem Program.nodes_unnumbered (p : Program) : p.unnumbered.nodes = p.nodes.map Node.unnumbered := by
  unfold Program.nodes
  rw [List.map_append, ← Statement.nodes_allUnnumbered, List.map_flatMap]
  simp only [← Declaration.nodes_unnumbered]
  rw [Program.unnumbered, List.flatMap_map]

/-! ## What is wrong, without the numbers -/

namespace Typing

/-- The same names declared, and the same noticed but for the numbers. -/
def State.Alike (s s' : State) : Prop :=
  s.table = s'.table ∧ s.findings.map Finding.diagnostic = s'.findings.map Finding.diagnostic

theorem alike_declare {s s' : State} (h : s.Alike s') (token : Token) (type : ValueType)
    (seq seq' : SeqNumber) : (s.declare token type seq).Alike (s'.declare token type seq') := by
  obtain ⟨htable, hfindings⟩ := h
  unfold State.declare
  split
  · rw [← htable]
    cases s.table.insert ⟨token, type⟩ with
    | added table => exact ⟨rfl, hfindings⟩
    | taken holder =>
      refine ⟨htable, ?_⟩
      simp only [State.findings_report, List.map_append, hfindings, List.map_cons, List.map_nil]
    | unscoped =>
      refine ⟨htable, ?_⟩
      simp only [State.findings_note, List.map_append, hfindings, Note.finding?]
  · exact ⟨htable, hfindings⟩

theorem alike_declaration (d : Declaration) {s s' : State} (h : s.Alike s') :
    (declaration d.unnumbered s).Alike (declaration d s') := by
  unfold declaration Declaration.unnumbered
  simp only [List.foldl_map]
  induction d.idents generalizing s s' with
  | nil => exact h
  | cons i idents ih => exact ih (alike_declare h i.token _ _ _)

end Typing

namespace Node

theorem declares_unnumbered (table : SymbolTable) (n : Node) :
    n.unnumbered.declares table = n.declares table := by
  cases n with
  | group d => exact (Typing.alike_declaration d ⟨rfl, rfl⟩).1
  | ident | part | condition | statement => rfl

theorem diagnostics_unnumbered (table : SymbolTable) (n : Node) :
    n.unnumbered.diagnostics table = n.diagnostics table := by
  cases n with
  | group d => exact (Typing.alike_declaration d ⟨rfl, rfl⟩).2
  | ident checked => cases checked <;> rfl
  | part checked e =>
    cases checked with
    | false => rfl
    | true =>
      cases e with
      | value | unary | group | error => rfl
      | binary _ left _ right =>
        simp only [unnumbered, Expr.unnumbered, diagnostics, Expr.conflicts_unnumbered,
          Expr.typeIn_unnumbered]
  | condition c =>
    simp only [unnumbered, Condition.unnumbered, diagnostics, Expr.conflicts_unnumbered,
      Expr.typeIn_unnumbered]
  | statement st =>
    cases st with
    | assignment _ _ value => exact Expr.conflicts_unnumbered table _ value
    | conditional _ _ _ otherwise => cases otherwise <;> rfl
    | loop | input | output => rfl

end Node

theorem diagnostics_walk_unnumbered (table : SymbolTable) (nodes : List Node) :
    (walk table (nodes.map Node.unnumbered)).map Finding.diagnostic =
      (walk table nodes).map Finding.diagnostic := by
  induction nodes generalizing table with
  | nil => rfl
  | cons n nodes ih =>
    simp only [List.map_cons, walk, List.map_append, Node.declares_unnumbered, ih, Node.findings,
      Node.diagnostics_unnumbered, List.map_map]
    rfl

/-- Programs that differ in their numbers alone have the same wrong with them. -/
theorem diagnostics_check_of_alike {p p' : Program} (h : AlikeBy Program.unnumbered p p') :
    (Typing.check p).map Finding.diagnostic = (Typing.check p').map Finding.diagnostic := by
  unfold AlikeBy at h
  rw [Typing.check_eq_walk, Typing.check_eq_walk, ← diagnostics_walk_unnumbered,
    ← Program.nodes_unnumbered, h, Program.nodes_unnumbered, diagnostics_walk_unnumbered]

end PalChecker
