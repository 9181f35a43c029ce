import PalChecker.Proofs.Parser.RenamedRuns
import PalChecker.Proofs.Syntax.Canonical
import PalChecker.Proofs.Typing.Walk

/-!
# Checking other names

A check asks of two names only whether they are the same. So it finds the same wrong with a program whose
names are exchanged for others, as long as different names stay different.
-/

namespace PalChecker

/-! ## Nodes over other tokens -/

section

variable (r : Renaming)

def Node.renamed : Node → Node
  | ident checked i => ident checked (i.renamed r)
  | part checked e => part checked (e.renamed r)
  | condition c => condition (c.renamed r)
  | statement s => statement (s.renamed r)
  | group d => group (d.renamed r)

theorem Node.seq_renamed (n : Node) : (n.renamed r).seq = n.seq := by
  cases n with
  | part _ e => cases e <;> rfl
  | statement st =>
    cases st with
    | conditional _ _ _ otherwise => cases otherwise <;> rfl
    | assignment | loop | input | output => rfl
  | ident | condition | group => rfl

namespace Expr

theorem nodes_renamed (checked : Bool) (e : Expr) :
    (e.renamed r).nodes checked = (e.nodes checked).map (Node.renamed r) := by
  induction e with
  | value | error => rfl
  | unary _ _ _ ih | group _ _ ih =>
    simp only [renamed, nodes, List.map_append, ih]
    rfl
  | binary _ _ _ _ ihleft ihright =>
    simp only [renamed, nodes, List.map_append, ihleft, ihright]
    rfl

theorem isSingle_renamed (e : Expr) : (e.renamed r).IsSingle ↔ e.IsSingle := by
  induction e with
  | value | error | binary => exact Iff.rfl
  | unary _ _ _ ih | group _ _ ih => exact ih

theorem outputNodes_renamed (values : List Expr) :
    outputNodes (values.map (renamed r)) = (outputNodes values).map (Node.renamed r) := by
  unfold outputNodes
  rw [List.flatMap_map, List.map_flatMap]
  refine congrArg (List.flatMap · values) (funext fun e => ?_)
  rw [nodes_renamed]
  simp only [isSingle_renamed]

theorem representative?_renamed (e : Expr) :
    (e.renamed r).representative? = e.representative?.map r.token := by
  induction e with
  | value | error => rfl
  | unary _ _ _ ih | group _ _ ih => exact ih
  | binary _ _ _ _ ihleft _ => exact ihleft

end Expr

theorem Condition.nodes_renamed (c : Condition) :
    (c.renamed r).nodes = c.nodes.map (Node.renamed r) := by
  unfold Condition.nodes
  simp only [List.map_append, ← Expr.nodes_renamed]
  rfl

namespace Statement

mutual

theorem nodes_renamed : (st : Statement) → (st.renamed r).nodes = st.nodes.map (Node.renamed r)
  | assignment _ _ value => by
    simp only [renamed, nodes, List.map_cons, List.map_append, Expr.nodes_renamed]
    rfl
  | loop _ test body => by
    simp only [renamed, nodes, List.map_append, Condition.nodes_renamed, nodes_allRenamed body]
    rfl
  | conditional _ test whenTrue none => by
    simp only [renamed, nodes, List.map_append, Condition.nodes_renamed, nodes_allRenamed whenTrue]
    rfl
  | conditional _ test whenTrue (some otherwise) => by
    simp only [renamed, nodes, List.map_append, Condition.nodes_renamed, nodes_allRenamed whenTrue,
      nodes_allRenamed otherwise]
    rfl
  | input _ targets => by
    simp only [renamed, nodes, List.map_append, List.map_map]
    rfl
  | output _ values => by
    simp only [renamed, nodes, List.map_append, Expr.outputNodes_renamed]
    rfl

theorem nodes_allRenamed : (body : List Statement) →
    allNodes (allRenamed r body) = (allNodes body).map (Node.renamed r)
  | [] => rfl
  | first :: rest => by
    rw [allRenamed, allNodes, allNodes, List.map_append, nodes_renamed first, nodes_allRenamed rest]

end

end Statement

theorem Declaration.nodes_renamed (d : Declaration) :
    (d.renamed r).nodes = d.nodes.map (Node.renamed r) := by
  simp only [renamed, nodes, List.map_append, List.map_map]
  rfl

theorem Program.nodes_renamed (p : Program) : (p.renamed r).nodes = p.nodes.map (Node.renamed r) := by
  unfold Program.nodes
  rw [List.map_append, ← Statement.nodes_allRenamed, List.map_flatMap]
  simp only [← Declaration.nodes_renamed]
  rw [Program.renamed, List.flatMap_map]

/-! ## Names that stay apart -/

/-- Names are the same after a renaming exactly if they were the same before. -/
def Renaming.KeepsNames : Prop :=
  ∀ t u : Token, t.kind = .identifier → u.kind = .identifier →
    ((r.token t).value = (r.token u).value ↔ t.value = u.value)

/-- All that is declared are names. -/
def SymbolTable.Named (table : SymbolTable) : Prop :=
  ∀ scope ∈ table.scopes, ∀ s ∈ scope, s.token.kind = .identifier

/-- What is looked up when the node is checked is a name. -/
def Node.Named : Node → Prop
  | ident _ i => i.IsName
  | statement (.assignment _ target _) => target.IsName
  | part _ _ | condition _ | statement _ | group _ => True

def SymbolTable.renamed (table : SymbolTable) : SymbolTable :=
  ⟨table.scopes.map (List.map (Symbol.renamed r))⟩

def Insertion.renamed : Insertion → Insertion
  | added table => added (table.renamed r)
  | taken holder => taken (holder.renamed r)
  | unscoped => unscoped

end

section

variable {r : Renaming} (hr : r.KeepsNames)

include hr

theorem Scope.find?_renamed {scope : Scope} (h : ∀ s ∈ scope, s.token.kind = .identifier) {t : Token}
    (ht : t.kind = .identifier) :
    Scope.find? (r.token t).value (scope.map (Symbol.renamed r)) =
      (scope.find? t.value).map (Symbol.renamed r) := by
  unfold Scope.find?
  induction scope with
  | nil => rfl
  | cons s scope ih =>
    obtain ⟨hs, hscope⟩ := List.forall_mem_cons.mp h
    have hname : (s.renamed r).name = (r.token t).value ↔ s.name = t.value := hr s.token t hs ht
    by_cases hsame : s.name = t.value
    · rw [List.map_cons, List.find?_cons_of_pos (by simpa using hname.mpr hsame),
        List.find?_cons_of_pos (by simpa using hsame), Option.map_some]
    · rw [List.map_cons, List.find?_cons_of_neg (by simpa using mt hname.mp hsame),
        List.find?_cons_of_neg (by simpa using hsame), ih hscope]

namespace SymbolTable

variable {table : SymbolTable} (h : table.Named)

include h

theorem lookup?_renamed {t : Token} (ht : t.kind = .identifier) :
    (table.renamed r).lookup? (r.token t).value = (table.lookup? t.value).map (Symbol.renamed r) := by
  obtain ⟨scopes⟩ := table
  unfold lookup? renamed
  induction scopes with
  | nil => rfl
  | cons scope scopes ih =>
    obtain ⟨hscope, hscopes⟩ := List.forall_mem_cons.mp h
    rw [List.map_cons, List.findSome?_cons, List.findSome?_cons, Scope.find?_renamed hr hscope ht]
    cases scope.find? t.value with
    | none => exact ih hscopes
    | some s => rfl

theorem typeOf_renamed {t : Token} (ht : t.kind = .identifier) :
    (table.renamed r).typeOf (r.token t).value = table.typeOf t.value := by
  unfold typeOf
  rw [lookup?_renamed hr h ht]
  cases table.lookup? t.value <;> rfl

theorem undeclared_renamed {t : Token} (ht : t.kind = .identifier) :
    (table.renamed r).undeclared (r.token t) = (table.undeclared t).map (Diagnostic.renamed r) := by
  unfold undeclared
  rw [lookup?_renamed hr h ht]
  cases table.lookup? t.value <;> rfl

theorem insert_renamed {s : Symbol} (hs : s.token.kind = .identifier) :
    (table.renamed r).insert (s.renamed r) = (table.insert s).renamed r := by
  obtain ⟨scopes⟩ := table
  cases scopes with
  | nil => rfl
  | cons scope outer =>
    have hfind : Scope.find? (s.renamed r).name (scope.map (Symbol.renamed r)) =
        (scope.find? s.name).map (Symbol.renamed r) :=
      Scope.find?_renamed hr (List.forall_mem_cons.mp h).1 hs
    simp only [insert, renamed, List.map_cons, hfind]
    cases scope.find? s.name <;> rfl

omit hr in
theorem Named.insert {s : Symbol} {u : SymbolTable} (hs : s.token.kind = .identifier)
    (hadded : table.insert s = .added u) : u.Named := by
  obtain ⟨scopes⟩ := table
  cases scopes with
  | nil => cases hadded
  | cons scope outer =>
    obtain ⟨hscope, houter⟩ := List.forall_mem_cons.mp h
    simp only [SymbolTable.insert] at hadded
    split at hadded
    · cases hadded
    · cases hadded
      exact List.forall_mem_cons.mpr ⟨List.forall_mem_cons.mpr ⟨hs, hscope⟩, houter⟩

end SymbolTable

/-! ## Declaring -/

namespace Typing

omit hr in
/-- The second state has the other names, and everything declared is a name. -/
structure State.Renames (r : Renaming) (s s' : State) : Prop where
  named : s.table.Named
  table_eq : s'.table = s.table.renamed r
  findings_eq : s'.findings = s.findings.map (Finding.renamed r)

theorem State.Renames.declare {s s' : State} (h : s.Renames r s') (token : Token) (type : ValueType)
    (seq : SeqNumber) : (s.declare token type seq).Renames r (s'.declare (r.token token) type seq) := by
  unfold State.declare
  rw [r.kind_token]
  by_cases hkind : token.kind = .identifier
  · have hinsert : s'.table.insert ⟨r.token token, type⟩ = (s.table.insert ⟨token, type⟩).renamed r := by
      rw [h.table_eq]
      exact SymbolTable.insert_renamed hr h.named (s := ⟨token, type⟩) hkind
    rw [if_pos hkind, if_pos hkind, hinsert]
    cases hcase : s.table.insert ⟨token, type⟩ with
    | added table => exact ⟨h.named.insert hkind hcase, rfl, h.findings_eq⟩
    | taken holder =>
      refine ⟨h.named, h.table_eq, ?_⟩
      simp only [Insertion.renamed, State.findings_report, List.map_append, h.findings_eq]
      rfl
    | unscoped =>
      refine ⟨h.named, h.table_eq, ?_⟩
      simp only [Insertion.renamed, State.findings_note, List.map_append, h.findings_eq]
      rfl
  · rw [if_neg hkind, if_neg hkind]
    exact h

theorem renames_declaration (d : Declaration) {s s' : State} (h : s.Renames r s') :
    (declaration d s).Renames r (declaration (d.renamed r) s') := by
  unfold declaration Declaration.renamed
  simp only [List.foldl_map]
  induction d.idents generalizing s s' with
  | nil => exact h
  | cons i idents ih => exact ih (h.declare hr i.token _ _)

theorem renames_declaration_of_table (d : Declaration) {table : SymbolTable} (h : table.Named) :
    (declaration d ⟨table, []⟩).Renames r (declaration (d.renamed r) ⟨table.renamed r, []⟩) :=
  renames_declaration hr d ⟨h, rfl, rfl⟩

end Typing

/-! ## What is wrong at a node -/

variable {table : SymbolTable} (h : table.Named)

include h

theorem Expr.typeIn_renamed (e : Expr) : (e.renamed r).typeIn (table.renamed r) = e.typeIn table := by
  induction e with
  | value stamp token =>
    unfold Expr.renamed Expr.typeIn
    rw [r.kind_token]
    by_cases hkind : token.kind = .identifier
    · rw [if_pos hkind, if_pos hkind, SymbolTable.typeOf_renamed hr h hkind]
    · rw [if_neg hkind, if_neg hkind]
  | error => rfl
  | unary _ _ _ ih | group _ _ ih => exact ih
  | binary _ _ _ _ ihleft _ => exact ihleft

theorem Expr.conflicts_renamed (expected : ValueType) (e : Expr) :
    (e.renamed r).conflicts (table.renamed r) expected =
      (e.conflicts table expected).map (Diagnostic.renamed r) := by
  unfold conflicts
  rw [representative?_renamed, typeIn_renamed hr h]
  cases e.representative? with
  | none => rfl
  | some token =>
    simp only [Option.map_some]
    split <;> rfl

namespace Node

theorem declares_renamed (n : Node) :
    (n.declares table).Named ∧
      (n.renamed r).declares (table.renamed r) = (n.declares table).renamed r := by
  cases n with
  | group d =>
    have hrenames := Typing.renames_declaration_of_table hr d h
    exact ⟨hrenames.named, hrenames.table_eq⟩
  | ident | part | condition | statement => exact ⟨h, rfl⟩

theorem diagnostics_renamed {n : Node} (hn : n.Named) :
    (n.renamed r).diagnostics (table.renamed r) = (n.diagnostics table).map (Diagnostic.renamed r) := by
  cases n with
  | group d =>
    have hrenames := Typing.renames_declaration_of_table hr d h
    simp only [renamed, diagnostics, hrenames.findings_eq, List.map_map]
    rfl
  | ident checked i =>
    cases checked with
    | true => exact SymbolTable.undeclared_renamed hr h hn
    | false => rfl
  | part checked e =>
    cases checked with
    | false => rfl
    | true =>
      cases e with
      | value stamp token =>
        simp only [renamed, Expr.renamed, diagnostics, r.kind_token]
        by_cases hkind : token.kind = .identifier
        · rw [if_pos hkind, if_pos hkind, SymbolTable.undeclared_renamed hr h hkind]
        · rw [if_neg hkind, if_neg hkind, List.map_nil]
      | binary _ left _ right =>
        simp only [renamed, Expr.renamed, diagnostics, Expr.conflicts_renamed hr h,
          Expr.typeIn_renamed hr h]
      | unary | group | error => rfl
  | condition c =>
    simp only [renamed, Condition.renamed, diagnostics, Expr.conflicts_renamed hr h,
      Expr.typeIn_renamed hr h]
  | statement st =>
    cases st with
    | assignment _ target value =>
      have htarget := SymbolTable.typeOf_renamed hr h (t := target.token) hn
      simp only [renamed, Statement.renamed, Ident.renamed, diagnostics, htarget,
        Expr.conflicts_renamed hr h]
    | conditional _ _ _ otherwise => cases otherwise <;> rfl
    | loop | input | output => rfl

end Node

theorem walk_renamed {nodes : List Node} (hnodes : ∀ n ∈ nodes, n.Named) :
    walk (table.renamed r) (nodes.map (Node.renamed r)) = (walk table nodes).map (Finding.renamed r) := by
  induction nodes generalizing table with
  | nil => rfl
  | cons n nodes ih =>
    obtain ⟨hn, hnodes'⟩ := List.forall_mem_cons.mp hnodes
    obtain ⟨hnamed, hdeclares⟩ := n.declares_renamed hr h
    have hfindings : (n.renamed r).findings (table.renamed r) =
        (n.findings table).map (Finding.renamed r) := by
      unfold Node.findings
      rw [Node.diagnostics_renamed hr h hn, Node.seq_renamed, List.map_map, List.map_map]
      rfl
    rw [List.map_cons, walk, walk, hdeclares, ih hnamed hnodes', hfindings, List.map_append]

omit h in
/-- A check of the program with other names finds the same, with the other names in it. -/
theorem check_renamed {p : Program} (hp : ∀ n ∈ p.nodes, n.Named) :
    Typing.check (p.renamed r) = (Typing.check p).map (Finding.renamed r) := by
  have hempty : SymbolTable.empty.enter.Named :=
    List.forall_mem_singleton.mpr fun _ hs => absurd hs List.not_mem_nil
  have hwalk := walk_renamed hr hempty hp
  rwa [← Program.nodes_renamed, show SymbolTable.empty.enter.renamed r = SymbolTable.empty.enter from rfl,
    ← Typing.check_eq_walk, ← Typing.check_eq_walk] at hwalk

end

end PalChecker
