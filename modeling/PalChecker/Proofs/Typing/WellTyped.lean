import PalChecker.Proofs.Typing.Declared

/-!
# Well typed programs

A check is silent on a complete tree exactly when the tree is well typed, though it compares with the
leftmost value alone and passes over what has no known type.
-/

namespace PalChecker

/-! ## The judgement -/

section

variable (G : String → DeclType → Prop)

inductive Expr.HasType : Expr → DeclType → Prop where
  | name {stamp : Stamp} {token : Token} {type : DeclType} :
    token.kind = .identifier → G token.value type → HasType (.value stamp token) type
  | integer {stamp : Stamp} {token : Token} :
    token.kind = .integerLiteral → HasType (.value stamp token) .integer
  | real {stamp : Stamp} {token : Token} :
    token.kind = .realLiteral → HasType (.value stamp token) .real
  | unary {stamp : Stamp} {sign : Sign} {operand : Expr} {type : DeclType} :
    HasType operand type → HasType (.unary stamp sign operand) type
  | binary {stamp : Stamp} {left right : Expr} {op : BinaryOp} {type : DeclType} :
    HasType left type → HasType right type → HasType (.binary stamp left op right) type
  | group {stamp : Stamp} {inner : Expr} {type : DeclType} :
    HasType inner type → HasType (.group stamp inner) type

def Condition.WellTyped (c : Condition) : Prop := ∃ type, c.left.HasType G type ∧ c.right.HasType G type

/-- An output value that is a single operand need not have a type. -/
inductive Statement.WellTyped : Statement → Prop where
  | assignment {stamp : Stamp} {target : Ident} {value : Expr} {type : DeclType} :
    G target.token.value type → value.HasType G type → WellTyped (.assignment stamp target value)
  | loop {stamp : Stamp} {test : Condition} {body : List Statement} :
    test.WellTyped G → (∀ s ∈ body, WellTyped s) → WellTyped (.loop stamp test body)
  | conditional {stamp : Stamp} {test : Condition} {whenTrue : List Statement} :
    test.WellTyped G → (∀ s ∈ whenTrue, WellTyped s) →
      WellTyped (.conditional stamp test whenTrue none)
  | alternative {stamp : Stamp} {test : Condition} {whenTrue otherwise : List Statement} :
    test.WellTyped G → (∀ s ∈ whenTrue, WellTyped s) → (∀ s ∈ otherwise, WellTyped s) →
      WellTyped (.conditional stamp test whenTrue (some otherwise))
  | input {stamp : Stamp} {targets : List Ident} :
    (∀ i ∈ targets, ∃ type, G i.token.value type) → WellTyped (.input stamp targets)
  | output {stamp : Stamp} {values : List Expr} :
    (∀ e ∈ values, e.IsSingle ∨ ∃ type, e.HasType G type) → WellTyped (.output stamp values)

end

structure Program.WellTyped (p : Program) : Prop where
  declared_once : (p.declared.map Prod.fst).Nodup
  statements : ∀ s ∈ p.statements, s.WellTyped fun name type => (name, some type) ∈ p.declared

/-! ## Complete trees -/

/-- Has no part that could not be read, and no values but names and numbers. -/
def Expr.Complete : Expr → Prop
  | value _ token => token.kind ∈ TokenKind.value
  | unary _ _ operand => operand.Complete
  | binary _ left _ right => left.Complete ∧ right.Complete
  | group _ inner => inner.Complete
  | error _ => False

def Condition.Complete (c : Condition) : Prop := c.left.Complete ∧ c.op.isSome ∧ c.right.Complete

inductive Statement.Complete : Statement → Prop where
  | assignment {stamp : Stamp} {target : Ident} {value : Expr} :
    target.IsName → value.Complete → Complete (.assignment stamp target value)
  | loop {stamp : Stamp} {test : Condition} {body : List Statement} :
    test.Complete → (∀ s ∈ body, Complete s) → Complete (.loop stamp test body)
  | conditional {stamp : Stamp} {test : Condition} {whenTrue : List Statement} :
    test.Complete → (∀ s ∈ whenTrue, Complete s) → Complete (.conditional stamp test whenTrue none)
  | alternative {stamp : Stamp} {test : Condition} {whenTrue otherwise : List Statement} :
    test.Complete → (∀ s ∈ whenTrue, Complete s) → (∀ s ∈ otherwise, Complete s) →
      Complete (.conditional stamp test whenTrue (some otherwise))
  | input {stamp : Stamp} {targets : List Ident} :
    (∀ i ∈ targets, i.IsName) → Complete (.input stamp targets)
  | output {stamp : Stamp} {values : List Expr} :
    (∀ e ∈ values, e.Complete) → Complete (.output stamp values)

structure Program.Complete (p : Program) : Prop where
  names : ∀ d ∈ p.declarations, ∀ i ∈ d.idents, i.IsName
  types : ∀ d ∈ p.declarations, d.type.isSome
  statements : ∀ s ∈ p.statements, s.Complete

/-! ## Nodes with nothing to say -/

def SymbolTable.Quiet (table : SymbolTable) (nodes : List Node) : Prop :=
  ∀ n ∈ nodes, n.diagnostics table = []

namespace SymbolTable

variable {table : SymbolTable}

theorem quiet_append {a b : List Node} : table.Quiet (a ++ b) ↔ table.Quiet a ∧ table.Quiet b :=
  List.forall_mem_append

theorem quiet_singleton {n : Node} : table.Quiet [n] ↔ n.diagnostics table = [] :=
  List.forall_mem_singleton

/-- The table knows the types that the judgement has for names. -/
structure Records (table : SymbolTable) (G : String → DeclType → Prop) : Prop where
  typeOf : ∀ name type, G name type → table.typeOf name = .ofDeclared (some type)
  undeclared : ∀ token : Token, table.undeclared token = [] ↔ ∃ type, G token.value type

end SymbolTable

namespace Typing

variable {table : SymbolTable} {G : String → DeclType → Prop}

theorem typeIn_of_hasType (h : table.Records G) {e : Expr} {type : DeclType} (he : e.HasType G type) :
    e.typeIn table = .ofDeclared (some type) := by
  induction he with
  | name hkind htype =>
    rw [Expr.typeIn, if_pos hkind]
    exact h.typeOf _ _ htype
  | integer hkind => simp [Expr.typeIn, hkind, ValueType.ofLiteral?, ValueType.ofDeclared]
  | real hkind => simp [Expr.typeIn, hkind, ValueType.ofLiteral?, ValueType.ofDeclared]
  | unary _ ih => exact ih
  | binary _ _ ih _ => exact ih
  | group _ ih => exact ih

theorem representative_of_hasType {e : Expr} {type : DeclType} (he : e.HasType G type) :
    ∃ token, e.representative? = some token := by
  induction he with
  | name | integer | real => exact ⟨_, rfl⟩
  | unary _ ih => exact ih
  | binary _ _ ih _ => exact ih
  | group _ ih => exact ih

theorem not_conflicts_iff {expected actual : DeclType} :
    ¬(ValueType.ofDeclared (some expected)).Conflicts (.ofDeclared (some actual)) ↔
      expected = actual := by
  cases expected <;> cases actual <;> decide

theorem conflicts_eq_nil_iff (h : table.Records G) {e : Expr} {expected actual : DeclType}
    (he : e.HasType G actual) :
    e.conflicts table (.ofDeclared (some expected)) = [] ↔ expected = actual := by
  obtain ⟨token, htoken⟩ := representative_of_hasType he
  rw [← not_conflicts_iff, Expr.conflicts, htoken, typeIn_of_hasType h he]
  simp only
  split
  · rename_i hconflicts
    simp [hconflicts]
  · rename_i hnone
    simp [hnone]

/-! ## Expressions and conditions -/

theorem quiet_of_hasType (h : table.Records G) {e : Expr} {type : DeclType} (he : e.HasType G type) :
    table.Quiet (e.nodes true) := by
  induction he with
  | name hkind htype =>
    refine SymbolTable.quiet_singleton.mpr ?_
    rw [Node.diagnostics, if_pos hkind]
    exact (h.undeclared _).mpr ⟨_, htype⟩
  | integer hkind =>
    refine SymbolTable.quiet_singleton.mpr ?_
    simp [Node.diagnostics, hkind]
  | real hkind =>
    refine SymbolTable.quiet_singleton.mpr ?_
    simp [Node.diagnostics, hkind]
  | unary _ ih => exact SymbolTable.quiet_append.mpr ⟨ih, SymbolTable.quiet_singleton.mpr rfl⟩
  | group _ ih => exact SymbolTable.quiet_append.mpr ⟨ih, SymbolTable.quiet_singleton.mpr rfl⟩
  | binary hleft hright ihleft ihright =>
    refine SymbolTable.quiet_append.mpr ⟨SymbolTable.quiet_append.mpr ⟨ihleft, ihright⟩, ?_⟩
    refine SymbolTable.quiet_singleton.mpr ?_
    rw [Node.diagnostics, typeIn_of_hasType h hleft]
    exact (conflicts_eq_nil_iff h hright).mpr rfl

theorem hasType_of_quiet (h : table.Records G) {e : Expr} (hcomplete : e.Complete)
    (hquiet : table.Quiet (e.nodes true)) : ∃ type, e.HasType G type := by
  induction e with
  | value stamp token =>
    have hnone := SymbolTable.quiet_singleton.mp hquiet
    have hkind : token.kind ∈ TokenKind.value := hcomplete
    simp only [TokenKind.value, List.mem_cons, List.not_mem_nil, or_false] at hkind
    rcases hkind with hname | hinteger | hreal
    · rw [Node.diagnostics, if_pos hname] at hnone
      obtain ⟨type, htype⟩ := (h.undeclared token).mp hnone
      exact ⟨type, .name hname htype⟩
    · exact ⟨.integer, .integer hinteger⟩
    · exact ⟨.real, .real hreal⟩
  | unary stamp sign operand ih =>
    obtain ⟨type, htype⟩ := ih hcomplete (SymbolTable.quiet_append.mp hquiet).1
    exact ⟨type, .unary htype⟩
  | group stamp inner ih =>
    obtain ⟨type, htype⟩ := ih hcomplete (SymbolTable.quiet_append.mp hquiet).1
    exact ⟨type, .group htype⟩
  | binary stamp left op right ihleft ihright =>
    obtain ⟨hsides, hself⟩ := SymbolTable.quiet_append.mp hquiet
    obtain ⟨hleft, hright⟩ := SymbolTable.quiet_append.mp hsides
    obtain ⟨type, htype⟩ := ihleft hcomplete.1 hleft
    obtain ⟨other, hother⟩ := ihright hcomplete.2 hright
    -- Both operands have a type, and a node that finds no conflict makes them one.
    have hnone := SymbolTable.quiet_singleton.mp hself
    rw [Node.diagnostics, typeIn_of_hasType h htype] at hnone
    obtain rfl := (conflicts_eq_nil_iff h hother).mp hnone
    exact ⟨type, .binary htype hother⟩
  | error => exact absurd hcomplete not_false

theorem quiet_expression_iff (h : table.Records G) {e : Expr} (hcomplete : e.Complete) :
    table.Quiet (e.nodes true) ↔ ∃ type, e.HasType G type :=
  ⟨hasType_of_quiet h hcomplete, fun ⟨_, htype⟩ => quiet_of_hasType h htype⟩

theorem quiet_condition_iff (h : table.Records G) {c : Condition} (hcomplete : c.Complete) :
    table.Quiet c.nodes ↔ c.WellTyped G := by
  obtain ⟨hcleft, -, hcright⟩ := hcomplete
  unfold Condition.nodes
  rw [SymbolTable.quiet_append, SymbolTable.quiet_append, quiet_expression_iff h hcleft,
    quiet_expression_iff h hcright, SymbolTable.quiet_singleton, Node.diagnostics]
  constructor
  · rintro ⟨⟨⟨type, hleft⟩, other, hright⟩, hnone⟩
    rw [typeIn_of_hasType h hleft] at hnone
    obtain rfl := (conflicts_eq_nil_iff h hright).mp hnone
    exact ⟨type, hleft, hright⟩
  · rintro ⟨type, hleft, hright⟩
    refine ⟨⟨⟨type, hleft⟩, type, hright⟩, ?_⟩
    rw [typeIn_of_hasType h hleft]
    exact (conflicts_eq_nil_iff h hright).mpr rfl

/-! ## Statements -/

theorem quiet_assignment_iff (h : table.Records G) {stamp : Stamp} {target : Ident} {value : Expr}
    (hcomplete : value.Complete) :
    table.Quiet (Statement.assignment stamp target value).nodes ↔
      ∃ type, G target.token.value type ∧ value.HasType G type := by
  have hnodes : table.Quiet (Statement.assignment stamp target value).nodes ↔
      table.undeclared target.token = [] ∧ table.Quiet (value.nodes true) ∧
        value.conflicts table (table.typeOf target.token.value) = [] := by
    rw [Statement.nodes, ← List.singleton_append, SymbolTable.quiet_append, SymbolTable.quiet_append]
    exact and_congr SymbolTable.quiet_singleton (and_congr Iff.rfl SymbolTable.quiet_singleton)
  rw [hnodes, h.undeclared, quiet_expression_iff h hcomplete]
  constructor
  · rintro ⟨⟨type, htarget⟩, ⟨other, hvalue⟩, hnone⟩
    rw [h.typeOf _ _ htarget] at hnone
    obtain rfl := (conflicts_eq_nil_iff h hvalue).mp hnone
    exact ⟨type, htarget, hvalue⟩
  · rintro ⟨type, htarget, hvalue⟩
    refine ⟨⟨type, htarget⟩, ⟨type, hvalue⟩, ?_⟩
    rw [h.typeOf _ _ htarget]
    exact (conflicts_eq_nil_iff h hvalue).mpr rfl

theorem quiet_unchecked (table : SymbolTable) (e : Expr) : table.Quiet (e.nodes false) := by
  have hself (e : Expr) : table.Quiet [.part false e] := SymbolTable.quiet_singleton.mpr rfl
  induction e with
  | value => exact hself _
  | unary _ _ _ ih => exact SymbolTable.quiet_append.mpr ⟨ih, hself _⟩
  | binary _ _ _ _ ihleft ihright =>
    exact SymbolTable.quiet_append.mpr ⟨SymbolTable.quiet_append.mpr ⟨ihleft, ihright⟩, hself _⟩
  | group _ _ ih => exact SymbolTable.quiet_append.mpr ⟨ih, hself _⟩
  | error => exact hself _

theorem quiet_outputValue_iff (h : table.Records G) {e : Expr} (hcomplete : e.Complete) :
    table.Quiet (e.nodes (decide ¬e.IsSingle)) ↔ e.IsSingle ∨ ∃ type, e.HasType G type := by
  by_cases hsingle : e.IsSingle
  · rw [decide_eq_false (fun hnot => hnot hsingle)]
    exact ⟨fun _ => Or.inl hsingle, fun _ => quiet_unchecked table e⟩
  · rw [decide_eq_true hsingle, quiet_expression_iff h hcomplete]
    exact ⟨Or.inr, fun htyped => htyped.resolve_left hsingle⟩

theorem quiet_block_iff {body : List Statement}
    (hbody : ∀ s ∈ body, table.Quiet s.nodes ↔ s.WellTyped G) :
    table.Quiet (Statement.allNodes body) ↔ ∀ s ∈ body, s.WellTyped G := by
  induction body with
  | nil => exact ⟨fun _ _ hs => absurd hs List.not_mem_nil, fun _ _ hn => absurd hn List.not_mem_nil⟩
  | cons first rest ih =>
    obtain ⟨hfirst, hrest⟩ := List.forall_mem_cons.mp hbody
    rw [Statement.allNodes, SymbolTable.quiet_append, hfirst, ih hrest, List.forall_mem_cons]

theorem quiet_append_statement_iff {a : List Node} {s : Statement}
    (hnone : (Node.statement s).diagnostics table = []) :
    table.Quiet (a ++ [.statement s]) ↔ table.Quiet a := by
  rw [SymbolTable.quiet_append, SymbolTable.quiet_singleton]
  exact and_iff_left hnone

theorem quiet_guarded_iff (h : table.Records G) {test : Condition} {body : List Statement}
    (htest : test.Complete) (hbody : ∀ s ∈ body, table.Quiet s.nodes ↔ s.WellTyped G) :
    table.Quiet (test.nodes ++ Statement.allNodes body) ↔
      test.WellTyped G ∧ ∀ s ∈ body, s.WellTyped G := by
  rw [SymbolTable.quiet_append, quiet_condition_iff h htest, quiet_block_iff hbody]

theorem quiet_targets_iff (h : table.Records G) (targets : List Ident) :
    table.Quiet (targets.map (.ident true)) ↔ ∀ i ∈ targets, ∃ type, G i.token.value type := by
  have hone (i : Ident) : (Node.ident true i).diagnostics table = [] ↔
    ∃ type, G i.token.value type := h.undeclared i.token
  unfold SymbolTable.Quiet
  rw [List.forall_mem_map]
  constructor
  · intro hquiet i hi
    exact (hone i).mp (hquiet i hi)
  · intro hdeclared i hi
    exact (hone i).mpr (hdeclared i hi)

theorem quiet_outputNodes_iff (h : table.Records G) {values : List Expr}
    (hvalues : ∀ e ∈ values, e.Complete) :
    table.Quiet (Expr.outputNodes values) ↔
      ∀ e ∈ values, e.IsSingle ∨ ∃ type, e.HasType G type := by
  constructor
  · intro hquiet e he
    refine (quiet_outputValue_iff h (hvalues e he)).mp fun n hn => ?_
    exact hquiet n (List.mem_flatMap.mpr ⟨e, he, hn⟩)
  · intro htyped n hn
    obtain ⟨e, he, hn⟩ := List.mem_flatMap.mp hn
    exact (quiet_outputValue_iff h (hvalues e he)).mpr (htyped e he) n hn

theorem quiet_statement_iff (h : table.Records G) {s : Statement} (hcomplete : s.Complete) :
    table.Quiet s.nodes ↔ s.WellTyped G := by
  -- Each statement is quiet when its own comparison is and its parts are.
  induction hcomplete with
  | assignment _ hvalue =>
    rw [quiet_assignment_iff h hvalue]
    constructor
    · rintro ⟨type, htarget, htyped⟩
      exact .assignment htarget htyped
    · intro hwell
      cases hwell with
      | assignment htarget htyped => exact ⟨_, htarget, htyped⟩
  | loop htest _ ih =>
    rw [Statement.nodes, quiet_append_statement_iff rfl, quiet_guarded_iff h htest ih]
    constructor
    · rintro ⟨htyped, hbody⟩
      exact .loop htyped hbody
    · intro hwell
      cases hwell with
      | loop htyped hbody => exact ⟨htyped, hbody⟩
  | conditional htest _ ih =>
    rw [Statement.nodes, quiet_append_statement_iff rfl, quiet_guarded_iff h htest ih]
    constructor
    · rintro ⟨htyped, hbody⟩
      exact .conditional htyped hbody
    · intro hwell
      cases hwell with
      | conditional htyped hbody => exact ⟨htyped, hbody⟩
  | alternative htest _ _ ihtrue ihotherwise =>
    rw [Statement.nodes, quiet_append_statement_iff rfl, SymbolTable.quiet_append,
      quiet_guarded_iff h htest ihtrue, quiet_block_iff ihotherwise]
    constructor
    · rintro ⟨⟨htyped, htrue⟩, hotherwise⟩
      exact .alternative htyped htrue hotherwise
    · intro hwell
      cases hwell with
      | alternative htyped htrue hotherwise => exact ⟨⟨htyped, htrue⟩, hotherwise⟩
  | input _ =>
    rw [Statement.nodes, quiet_append_statement_iff rfl, quiet_targets_iff h]
    constructor
    · exact .input
    · intro hwell
      cases hwell with
      | input hdeclared => exact hdeclared
  | output hvalues =>
    rw [Statement.nodes, quiet_append_statement_iff rfl, quiet_outputNodes_iff h hvalues]
    constructor
    · exact .output
    · intro hwell
      cases hwell with
      | output htyped => exact htyped

/-! ## Programs -/

theorem findings_eq_nil_iff {nodes : List Node} :
    nodes.flatMap (Node.findings table) = [] ↔ table.Quiet nodes := by
  rw [List.flatMap_eq_nil_iff]
  exact forall₂_congr fun n _ => List.map_eq_nil_iff

variable {declared : List (String × Option DeclType)}

theorem records_of_holds (h : table.Holds declared) (hnodup : (declared.map Prod.fst).Nodup)
    (htypes : ∀ pair ∈ declared, pair.2.isSome) :
    table.Records fun name type => (name, some type) ∈ declared where
  typeOf name type hmem := h.typeOf_of_lookup (lookup_of_mem hnodup hmem)
  undeclared token := by
    unfold SymbolTable.undeclared
    rw [ite_eq_right_iff, h.lookup_eq_none_iff]
    constructor
    · intro hfound
      -- A name that was not found would be reported.
      have hname : token.value ∈ declared.map Prod.fst := by
        by_cases hname : token.value ∈ declared.map Prod.fst
        · exact hname
        · exact absurd (hfound hname) (List.cons_ne_nil _ _)
      obtain ⟨⟨name, type⟩, hpair, hvalue⟩ := List.mem_map.mp hname
      obtain ⟨known, hknown⟩ := Option.isSome_iff_exists.mp (htypes _ hpair)
      simp only at hvalue hknown
      subst hvalue hknown
      exact ⟨known, hpair⟩
    · rintro ⟨type, hmem⟩ hnot
      exact absurd (List.mem_map_of_mem hmem) hnot

theorem declared_types {p : Program} (h : p.Complete) : ∀ pair ∈ p.declared, pair.2.isSome := by
  intro pair hpair
  obtain ⟨d, hd, hpair⟩ := List.mem_flatMap.mp hpair
  obtain ⟨i, -, rfl⟩ := List.mem_map.mp hpair
  exact h.types d hd

/-- A check says nothing exactly of the well typed programs. -/
theorem check_eq_nil_iff_wellTyped {p : Program} (h : p.Complete) : check p = [] ↔ p.WellTyped := by
  have hbody (hnodup : (p.declared.map Prod.fst).Nodup) :
      (Statement.allNodes p.statements).flatMap (Node.findings p.scope) = [] ↔
        ∀ st ∈ p.statements, st.WellTyped fun name type => (name, some type) ∈ p.declared := by
    have hrecords := records_of_holds (holds_scope h.names) hnodup (declared_types h)
    rw [findings_eq_nil_iff]
    exact quiet_block_iff fun st hst => quiet_statement_iff hrecords (h.statements st hst)
  rw [check_eq_append, List.append_eq_nil_iff, silent_declarations_iff h.names]
  constructor
  · rintro ⟨hnodup, hsilent⟩
    exact ⟨hnodup, (hbody hnodup).mp hsilent⟩
  · rintro ⟨hnodup, htyped⟩
    exact ⟨hnodup, (hbody hnodup).mpr htyped⟩

def countdown : Program :=
  let n : Token := ⟨.identifier, "n", .start⟩
  let one : Expr := .value .blank ⟨.integerLiteral, "1", .start⟩
  { name := some ⟨.identifier, "countdown", .start⟩
    declarations := [⟨.blank, [⟨.blank, n⟩], some .integer⟩]
    statements :=
      [.loop .blank ⟨.blank, .value .blank n, some .less, one⟩
        [.assignment .blank ⟨.blank, n⟩ (.binary .blank (.value .blank n) .sub one)],
      .output .blank [.value .blank n]]
    location := .start }

theorem complete_countdown : countdown.Complete where
  names := List.forall_mem_singleton.mpr (List.forall_mem_singleton.mpr rfl)
  types := List.forall_mem_singleton.mpr rfl
  statements := by
    have hname : TokenKind.identifier ∈ TokenKind.value := by decide
    have hnumber : TokenKind.integerLiteral ∈ TokenKind.value := by decide
    refine List.forall_mem_cons.mpr ⟨?_, List.forall_mem_singleton.mpr ?_⟩
    · refine .loop ⟨hname, rfl, hnumber⟩ (List.forall_mem_singleton.mpr ?_)
      exact .assignment rfl ⟨hname, hnumber⟩
    · exact .output (List.forall_mem_singleton.mpr hname)

theorem wellTyped_countdown : countdown.Complete ∧ check countdown = [] ∧ countdown.WellTyped := by
  have hsilent : check countdown = [] := by decide
  exact ⟨complete_countdown, hsilent,
    (check_eq_nil_iff_wellTyped complete_countdown).mp hsilent⟩

end Typing

end PalChecker
