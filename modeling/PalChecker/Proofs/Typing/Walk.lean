import PalChecker.Proofs.Syntax.Nodes
import PalChecker.Typing.Program

/-!
# Checking node by node

What is wrong at a node is said by the node and the names declared so far. A check of a program reports
just that, for one node after the other.
-/

namespace PalChecker

/-! ## What is wrong at a node -/

namespace SymbolTable

/-- The declared type of a name, which is not known if there is none. -/
def typeOf (table : SymbolTable) (name : String) : ValueType :=
  (table.lookup? name).elim .undefined Symbol.type

def undeclared (table : SymbolTable) (token : Token) : List Diagnostic :=
  if table.lookup? token.value = none then [.notDeclared token] else []

end SymbolTable

namespace Expr

def typeIn (table : SymbolTable) : Expr → ValueType
  | value _ token =>
    if token.kind = .identifier then table.typeOf token.value
    else (ValueType.ofLiteral? token.kind).getD .undefined
  | unary _ _ operand => operand.typeIn table
  | binary _ left _ _ => left.typeIn table
  | group _ inner => inner.typeIn table
  | error _ => .undefined

def conflicts (table : SymbolTable) (expected : ValueType) (e : Expr) : List Diagnostic :=
  match e.representative? with
  | none => []
  | some token =>
    if expected.Conflicts (e.typeIn table) then [.typeConflict token (e.typeIn table) expected] else []

end Expr

namespace Node

def diagnostics (table : SymbolTable) : Node → List Diagnostic
  | ident true i => table.undeclared i.token
  | part true (.value _ token) => if token.kind = .identifier then table.undeclared token else []
  | part true (.binary _ left _ right) => right.conflicts table (left.typeIn table)
  | condition c => c.right.conflicts table (c.left.typeIn table)
  | statement (.assignment _ target value) =>
    value.conflicts table (table.typeOf target.token.value)
  | group d => (Typing.declaration d ⟨table, []⟩).findings.map Finding.diagnostic
  | ident false _ | part _ _ | statement _ => []

def declares (table : SymbolTable) : Node → SymbolTable
  | group d => (Typing.declaration d ⟨table, []⟩).table
  | ident _ _ | part _ _ | condition _ | statement _ => table

/-- What is wrong at a node has its number. -/
def findings (table : SymbolTable) (n : Node) : List Finding :=
  (n.diagnostics table).map fun d => ⟨n.seq, d⟩

end Node

def walk : SymbolTable → List Node → List Finding
  | _, [] => []
  | table, n :: nodes => n.findings table ++ walk (n.declares table) nodes

def SymbolTable.after (table : SymbolTable) (nodes : List Node) : SymbolTable :=
  nodes.foldl Node.declares table

theorem walk_append (table : SymbolTable) (a b : List Node) :
    walk table (a ++ b) = walk table a ++ walk (table.after a) b := by
  induction a generalizing table with
  | nil => rfl
  | cons n a ih =>
    rw [List.cons_append, walk, ih, walk, List.append_assoc]
    rfl

theorem Node.declares_of_ne_group {n : Node} (h : ∀ d, .group d ≠ n) (table : SymbolTable) :
    n.declares table = table := by
  cases n with
  | group d => exact absurd rfl (h d)
  | ident | part | condition | statement => rfl

theorem SymbolTable.after_of_no_group {nodes : List Node} (h : ∀ d, .group d ∉ nodes) (table : SymbolTable) :
    table.after nodes = table := by
  induction nodes with
  | nil => rfl
  | cons n nodes ih =>
    rw [after, List.foldl_cons, n.declares_of_ne_group fun d hd => h d (hd ▸ List.mem_cons_self)]
    exact ih fun d hd => h d (List.mem_cons_of_mem n hd)

theorem walk_of_no_group {table : SymbolTable} {nodes : List Node} (h : ∀ d, .group d ∉ nodes) :
    walk table nodes = nodes.flatMap (Node.findings table) := by
  induction nodes with
  | nil => rfl
  | cons n nodes ih =>
    rw [walk, n.declares_of_ne_group fun d hd => h d (hd ▸ List.mem_cons_self),
      ih fun d hd => h d (List.mem_cons_of_mem n hd), List.flatMap_cons]

namespace Typing

/-! ## Operations -/

namespace State

variable (s : State)

@[simp] theorem table_cleared : s.cleared.table = s.table := rfl

@[simp] theorem findings_cleared : s.cleared.findings = [] := rfl

theorem cleared_of_table {s t : State} (h : t.table = s.table) : t.cleared = s.cleared :=
  congrArg (State.mk · []) h

theorem findings_note (n : Note) : (s.note n).findings = s.findings ++ n.finding?.toList := by
  unfold findings note
  rw [List.reverse_cons, List.filterMap_append]
  cases h : n.finding? <;> simp [h]

theorem fst_require (token : Token) (seq : SeqNumber) :
    (s.require token seq).1 = s.table.typeOf token.value := by
  unfold require SymbolTable.typeOf
  cases s.table.lookup? token.value <;> rfl

theorem findings_require (token : Token) (seq : SeqNumber) :
    (s.require token seq).2.findings =
      s.findings ++ (s.table.undeclared token).map fun d => ⟨seq, d⟩ := by
  unfold require SymbolTable.undeclared
  cases h : s.table.lookup? token.value with
  | some symbol => simp
  | none => simp

theorem fst_resolve (stamp : Stamp) (token : Token) :
    (s.resolve token stamp.seq).1 = (Expr.value stamp token).typeIn s.table := by
  unfold resolve Expr.typeIn
  split
  · exact s.fst_require token stamp.seq
  · rfl

theorem findings_resolve (stamp : Stamp) (token : Token) :
    (s.resolve token stamp.seq).2.findings =
      s.findings ++ (Node.part true (.value stamp token)).findings s.table := by
  unfold resolve Node.findings
  simp only [Node.diagnostics]
  split
  · exact s.findings_require token stamp.seq
  · exact (List.append_nil _).symm

theorem findings_compare (expected : ValueType) (e : Expr) (seq : SeqNumber) :
    (s.compare expected ⟨e.typeIn s.table, e.representative?⟩ seq).findings =
      s.findings ++ (e.conflicts s.table expected).map fun d => ⟨seq, d⟩ := by
  unfold compare Expr.conflicts
  cases e.representative? with
  | none => simp
  | some token =>
    simp only
    split <;> simp

/-- A step that looks at the names declared so far, and not at what was noticed. -/
def IsBlind (f : State → State) : Prop :=
  ∀ s, (f s).table = (f s.cleared).table ∧ (f s).findings = s.findings ++ (f s.cleared).findings

theorem IsBlind.comp {f g : State → State} (hf : IsBlind f) (hg : IsBlind g) :
    IsBlind fun s => g (f s) := by
  intro s
  obtain ⟨htable, hfindings⟩ := hf s
  have hcleared : (f s).cleared = (f s.cleared).cleared := cleared_of_table htable
  obtain ⟨htable₁, hfindings₁⟩ := hg (f s)
  obtain ⟨htable₂, hfindings₂⟩ := hg (f s.cleared)
  constructor
  · rw [htable₁, htable₂, hcleared]
  · rw [hfindings₁, hfindings₂, hfindings, hcleared, List.append_assoc]

theorem isBlind_declare (token : Token) (type : ValueType) (seq : SeqNumber) :
    IsBlind (declare token type seq) := by
  intro s
  unfold declare
  by_cases hkind : token.kind = .identifier
  · rw [if_pos hkind, if_pos hkind, table_cleared]
    cases s.table.insert ⟨token, type⟩ with
    | added table => exact ⟨rfl, (List.append_nil _).symm⟩
    | taken holder =>
      simp only [findings_report, findings_cleared, table_report, table_cleared, List.nil_append, and_self]
    | unscoped => exact ⟨rfl, by rw [findings_note, findings_note]; rfl⟩
  · rw [if_neg hkind, if_neg hkind]
    exact ⟨rfl, (List.append_nil _).symm⟩

theorem findings_declare (token : Token) (type : ValueType) (seq : SeqNumber) :
    (s.declare token type seq).findings = s.findings ∨
      ∃ holder, (s.declare token type seq).findings =
        s.findings ++ [⟨seq, .alreadyDeclared token holder⟩] := by
  unfold declare
  split
  · split
    · exact Or.inl rfl
    · exact Or.inr ⟨_, s.findings_report seq _⟩
    · left
      rw [findings_note]
      exact List.append_nil _
  · exact Or.inl rfl

end State

/-! ## Expressions and conditions -/

/-- From `s` to `t` the nodes were checked. -/
structure State.Visits (s : State) (nodes : List Node) (t : State) : Prop where
  table : t.table = s.table.after nodes
  findings : t.findings = s.findings ++ walk s.table nodes

namespace State.Visits

variable {s t u : State} {a b : List Node}

theorem refl (s : State) : s.Visits [] s := ⟨rfl, (List.append_nil _).symm⟩

theorem trans (ha : s.Visits a t) (hb : t.Visits b u) : s.Visits (a ++ b) u where
  table := by
    rw [hb.table, ha.table]
    exact List.foldl_append.symm
  findings := by rw [hb.findings, ha.findings, ha.table, walk_append, List.append_assoc]

theorem one {n : Node} (htable : t.table = n.declares s.table)
    (hfindings : t.findings = s.findings ++ n.findings s.table) : s.Visits [n] t where
  table := htable
  findings := by rw [hfindings, walk, walk, List.append_nil]

theorem cons {n : Node} (hn : s.Visits [n] t) (hb : t.Visits b u) : s.Visits (n :: b) u := hn.trans hb

theorem then_one {n : Node} (ha : s.Visits a t) (htable : u.table = n.declares t.table)
    (hfindings : u.findings = t.findings ++ n.findings t.table) : s.Visits (a ++ [n]) u :=
  ha.trans (one htable hfindings)

theorem idle {n : Node} (ha : s.Visits a t) (htable : n.declares t.table = t.table)
    (hnone : n.diagnostics t.table = []) : s.Visits (a ++ [n]) t := by
  refine ha.then_one htable.symm ?_
  rw [Node.findings, hnone]
  exact (List.append_nil _).symm

end State.Visits

theorem table_expression (e : Expr) (s : State) : (expression e s).2.table = s.table := by
  induction e generalizing s with
  | value stamp token => exact s.table_resolve token stamp.seq
  | unary _ _ operand ih => exact ih s
  | group _ inner ih => exact ih s
  | binary stamp left _ right ihleft ihright =>
    simp only [expression, State.table_compare]
    rw [ihright, ihleft]
  | error => rfl

theorem fst_expression (e : Expr) (s : State) :
    (expression e s).1 = ⟨e.typeIn s.table, e.representative?⟩ := by
  induction e generalizing s with
  | value stamp token => exact congrArg (Operand.mk · (some token)) (s.fst_resolve stamp token)
  | unary _ _ operand ih => exact ih s
  | group _ inner ih => exact ih s
  | binary _ left _ _ ihleft _ => exact ihleft s
  | error => rfl

theorem findings_compare_expression (expected : ValueType) (e : Expr) (seq : SeqNumber) (s : State) :
    ((expression e s).2.compare expected (expression e s).1 seq).findings =
      (expression e s).2.findings ++ (e.conflicts s.table expected).map fun d => ⟨seq, d⟩ := by
  have h := (expression e s).2.findings_compare expected e seq
  rw [table_expression] at h
  rw [fst_expression]
  exact h

theorem visits_expression (e : Expr) (s : State) : s.Visits (e.nodes true) (expression e s).2 := by
  induction e generalizing s with
  | value stamp token =>
    exact .one (s.table_resolve token stamp.seq) (s.findings_resolve stamp token)
  | unary _ _ operand ih => exact (ih s).idle rfl rfl
  | group _ inner ih => exact (ih s).idle rfl rfl
  | binary stamp left _ right ihleft ihright =>
    refine ((ihleft s).trans (ihright _)).then_one (State.table_compare _ _ _ _) ?_
    simp only [expression]
    rw [findings_compare_expression, fst_expression, table_expression right, table_expression left]
    simp only [Node.findings, Node.diagnostics, Node.seq, Expr.stamp]
  | error => exact (State.Visits.refl s).idle rfl rfl

theorem visits_condition (c : Condition) (s : State) : s.Visits c.nodes (condition c s) := by
  refine ((visits_expression c.left s).trans (visits_expression c.right _)).then_one
    (State.table_compare _ _ _ _) ?_
  simp only [condition]
  rw [findings_compare_expression, fst_expression, table_expression c.right, table_expression c.left]
  simp only [Node.findings, Node.diagnostics, Node.seq]

/-! ## Statements -/

theorem visits_unchecked (e : Expr) (s : State) : s.Visits (e.nodes false) s := by
  induction e with
  | value => exact (State.Visits.refl s).idle rfl rfl
  | unary _ _ _ ih => exact ih.idle rfl rfl
  | binary _ _ _ _ ihleft ihright => exact (ihleft.trans ihright).idle rfl rfl
  | group _ _ ih => exact ih.idle rfl rfl
  | error => exact (State.Visits.refl s).idle rfl rfl

theorem visits_outputValue (e : Expr) (s : State) :
    s.Visits (e.nodes (decide ¬e.IsSingle)) (outputValue e s) := by
  unfold outputValue
  by_cases h : e.IsSingle
  · rw [if_pos h, decide_eq_false (fun hnot => hnot h)]
    exact visits_unchecked e s
  · rw [if_neg h, decide_eq_true h]
    exact visits_expression e s

theorem visits_outputValues (values : List Expr) (s : State) :
    s.Visits (Expr.outputNodes values) (values.foldl (fun s e => outputValue e s) s) := by
  induction values generalizing s with
  | nil => exact .refl s
  | cons e values ih => exact (visits_outputValue e s).trans (ih _)

theorem visits_require (i : Ident) (s : State) :
    s.Visits [.ident true i] (s.require i.token i.stamp.seq).2 :=
  .one (s.table_require i.token i.stamp.seq) (s.findings_require i.token i.stamp.seq)

theorem visits_targets (targets : List Ident) (s : State) :
    s.Visits (targets.map (.ident true))
      (targets.foldl (fun s t => (s.require t.token t.stamp.seq).2) s) := by
  induction targets generalizing s with
  | nil => exact .refl s
  | cons i targets ih => exact (visits_require i s).cons (ih _)

theorem visits_assignment (stamp : Stamp) (target : Ident) (value : Expr) (s : State) :
    s.Visits (Statement.assignment stamp target value).nodes
      (statement (.assignment stamp target value) s) := by
  refine (visits_require target s).cons ((visits_expression value _).then_one
    (State.table_compare _ _ _ _) ?_)
  simp only [statement]
  rw [findings_compare_expression, State.fst_require, table_expression value, State.table_require]
  simp only [Node.findings, Node.diagnostics, Node.seq, Statement.stamp]

mutual

theorem visits_statement : (st : Statement) → (s : State) → s.Visits st.nodes (statement st s)
  | .assignment stamp target value, s => visits_assignment stamp target value s
  | .loop _ test body, s => ((visits_condition test s).trans (visits_statements body _)).idle rfl rfl
  | .conditional _ test whenTrue none, s =>
    ((visits_condition test s).trans (visits_statements whenTrue _)).idle rfl rfl
  | .conditional _ test whenTrue (some otherwise), s =>
    (((visits_condition test s).trans (visits_statements whenTrue _)).trans
      (visits_statements otherwise _)).idle rfl rfl
  | .input _ targets, s => (visits_targets targets s).idle rfl rfl
  | .output _ values, s => (visits_outputValues values s).idle rfl rfl

theorem visits_statements : (body : List Statement) → (s : State) →
    s.Visits (Statement.allNodes body) (statements body s)
  | [], s => .refl s
  | first :: rest, s => (visits_statement first s).trans (visits_statements rest _)

end

/-! ## Declarations and programs -/

theorem isBlind_declareAll (idents : List Ident) (type : ValueType) (seq : SeqNumber) :
    State.IsBlind fun s => idents.foldl (fun s i => s.declare i.token type seq) s := by
  induction idents with
  | nil => exact fun s => ⟨rfl, (List.append_nil _).symm⟩
  | cons i idents ih => exact (State.isBlind_declare i.token type seq).comp ih

def IsRedeclaration (idents : List Ident) (d : Diagnostic) : Prop :=
  ∃ i ∈ idents, ∃ holder, d = .alreadyDeclared i.token holder

theorem redeclarations_of_declareAll (idents : List Ident) (type : ValueType) (seq : SeqNumber) (s : State) :
    ∀ f ∈ (idents.foldl (fun s i => s.declare i.token type seq) s).findings,
      f ∈ s.findings ∨ f.seq = seq ∧ IsRedeclaration idents f.diagnostic := by
  induction idents generalizing s with
  | nil => exact fun f hf => Or.inl hf
  | cons i idents ih =>
    intro f hf
    rcases ih (s.declare i.token type seq) f hf with hf | ⟨hseq, j, hj, hdiagnostic⟩
    · rcases s.findings_declare i.token type seq with h | ⟨holder, h⟩
      · exact Or.inl (h ▸ hf)
      · rw [h, List.mem_append, List.mem_singleton] at hf
        rcases hf with hf | rfl
        · exact Or.inl hf
        · exact Or.inr ⟨rfl, i, List.mem_cons_self, holder, rfl⟩
    · exact Or.inr ⟨hseq, j, List.mem_cons_of_mem i hj, hdiagnostic⟩

theorem redeclarations_of_declaration {d : Declaration} {table : SymbolTable} {f : Finding}
    (hf : f ∈ (declaration d ⟨table, []⟩).findings) :
    f.seq = d.stamp.seq ∧ IsRedeclaration d.idents f.diagnostic :=
  (redeclarations_of_declareAll d.idents _ d.stamp.seq ⟨table, []⟩ f hf).resolve_left List.not_mem_nil

theorem visits_declared (idents : List Ident) (s : State) :
    s.Visits (idents.map (.ident false)) s := by
  induction idents with
  | nil => exact .refl s
  | cons i idents ih => exact ((State.Visits.refl s).idle (n := .ident false i) rfl rfl).cons ih

theorem visits_declaration (d : Declaration) (s : State) : s.Visits d.nodes (declaration d s) := by
  obtain ⟨htable, hfindings⟩ := isBlind_declareAll d.idents (.ofDeclared d.type) d.stamp.seq s
  refine (visits_declared d.idents s).then_one htable ?_
  have hseq : ((declaration d s.cleared).findings.map Finding.diagnostic).map
      (fun diagnostic => (⟨d.stamp.seq, diagnostic⟩ : Finding)) = (declaration d s.cleared).findings := by
    rw [List.map_map]
    refine (List.map_congr_left fun f hf => ?_).trans (List.map_id' _)
    exact congrArg (Finding.mk · f.diagnostic) (redeclarations_of_declaration hf).1.symm
  exact hfindings.trans (congrArg (s.findings ++ ·) hseq.symm)

theorem visits_declarations (groups : List Declaration) (s : State) :
    s.Visits (groups.flatMap Declaration.nodes) (declarations groups s) := by
  induction groups generalizing s with
  | nil => exact .refl s
  | cons d groups ih => exact (visits_declaration d s).trans (ih _)

/-- A check finds what is wrong at each node, in the order of the nodes. -/
theorem check_eq_walk (p : Program) : check p = walk SymbolTable.empty.enter p.nodes := by
  have h := ((visits_declarations p.declarations State.empty.openScope).trans
    (visits_statements p.statements _)).findings
  exact h

end Typing

end PalChecker
