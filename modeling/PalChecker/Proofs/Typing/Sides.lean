import PalChecker.Proofs.Typing.Declared

/-!
# The sides of comparisons

A check compares the types of two sides: the operands of an operator, those of a test, or a target and
its value. Nothing is said about a comparison if the type of a side is not known. Then the side was not
read, or its name is not declared, or it is declared without a type.
-/

namespace PalChecker

/-! ## Comparisons -/

inductive Side where
  | target (i : Ident)
  | operand (e : Expr)

namespace Side

def nodes : Side → List Node
  | target i => [.ident true i]
  | operand e => e.nodes true

/-- The token that stands for a side in a message. -/
def token? : Side → Option Token
  | target i => some i.token
  | operand e => e.representative?

/-- The type that a check gives to a side. -/
def typeIn (table : SymbolTable) : Side → ValueType
  | target i => (Typing.State.require i.token i.stamp.seq ⟨table, []⟩).1
  | operand e => (Typing.expression e ⟨table, []⟩).1.type

theorem typeIn_target (table : SymbolTable) (i : Ident) :
    (target i).typeIn table = table.typeOf i.token.value :=
  Typing.State.fst_require _ _ _

theorem typeIn_operand (table : SymbolTable) (e : Expr) : (operand e).typeIn table = e.typeIn table :=
  congrArg Typing.Operand.type (Typing.fst_expression e _)

end Side

/-- The sides that are compared when a node is checked. -/
def Node.sides? : Node → Option (Side × Side)
  | part true (.binary _ left _ right) => some (.operand left, .operand right)
  | condition c => some (.operand c.left, .operand c.right)
  | statement (.assignment _ target value) => some (.target target, .operand value)
  | _ => none

section

variable {table : SymbolTable}

theorem conflicts_of_undefined {expected : ValueType} {e : Expr}
    (h : expected = .undefined ∨ e.typeIn table = .undefined) : e.conflicts table expected = [] := by
  unfold Expr.conflicts
  split
  · rfl
  · refine if_neg fun hconflicts => ?_
    rcases h with h | h
    · exact hconflicts.1 h
    · exact hconflicts.2.1 h

/-- Where a node compares, it says whether the right side conflicts with the left one. -/
theorem Node.diagnostics_of_sides {n : Node} {left right : Side}
    (hsides : n.sides? = some (left, right)) :
    ∃ e, right = .operand e ∧ n.diagnostics table = e.conflicts table (left.typeIn table) := by
  unfold sides? at hsides
  split at hsides
  · cases hsides
    exact ⟨_, rfl, congrArg (Expr.conflicts table · _) (Side.typeIn_operand table _).symm⟩
  · cases hsides
    exact ⟨_, rfl, congrArg (Expr.conflicts table · _) (Side.typeIn_operand table _).symm⟩
  · cases hsides
    exact ⟨_, rfl, congrArg (Expr.conflicts table · _) (Side.typeIn_target table _).symm⟩
  · cases hsides

theorem Node.findings_of_undefined {n : Node} {left right : Side}
    (hsides : n.sides? = some (left, right))
    (h : left.typeIn table = .undefined ∨ right.typeIn table = .undefined) : n.findings table = [] := by
  obtain ⟨e, rfl, hdiagnostics⟩ := n.diagnostics_of_sides hsides
  rw [Side.typeIn_operand] at h
  rw [findings, hdiagnostics, conflicts_of_undefined h]
  rfl

end

/-! ## Sides come first -/

/-- Right before each comparison come the nodes of its sides. -/
def SidesFirst (nodes : List Node) : Prop :=
  ∀ n ∈ nodes, ∀ left right, n.sides? = some (left, right) →
    left.nodes ++ right.nodes ++ [n] <:+: nodes

namespace SidesFirst

variable {a b : List Node}

theorem of_none (h : ∀ n ∈ a, n.sides? = none) : SidesFirst a := by
  intro n hn left right hsides
  cases (h n hn).symm.trans hsides

theorem append (ha : SidesFirst a) (hb : SidesFirst b) : SidesFirst (a ++ b) := by
  intro n hn left right hsides
  rcases List.mem_append.mp hn with hn | hn
  · exact (ha n hn left right hsides).trans (List.prefix_append a b).isInfix
  · exact (hb n hn left right hsides).trans (List.suffix_append a b).isInfix

theorem one (ha : SidesFirst a) {n : Node} (hn : n.sides? = none) : SidesFirst (a ++ [n]) :=
  ha.append (of_none (List.forall_mem_singleton.mpr hn))

theorem compared (n : Node) (left right : Side) (hsides : n.sides? = some (left, right))
    (hleft : SidesFirst left.nodes) (hright : SidesFirst right.nodes) :
    SidesFirst (left.nodes ++ right.nodes ++ [n]) := by
  intro m hm left' right' hsides'
  rcases List.mem_append.mp hm with hm | hm
  · exact ((hleft.append hright) m hm left' right' hsides').trans (List.prefix_append _ _).isInfix
  · obtain rfl := List.mem_singleton.mp hm
    cases hsides.symm.trans hsides'
    exact List.infix_rfl

end SidesFirst

theorem sidesFirst_targets (checked : Bool) (idents : List Ident) :
    SidesFirst (idents.map (.ident checked)) :=
  .of_none (List.forall_mem_map.mpr fun _ _ => rfl)

theorem Expr.sidesFirst_nodes (checked : Bool) (e : Expr) : SidesFirst (e.nodes checked) := by
  induction e with
  | value | error => exact .of_none (List.forall_mem_singleton.mpr (by cases checked <;> rfl))
  | unary _ _ _ ih | group _ _ ih => exact ih.one (by cases checked <;> rfl)
  | binary stamp left op right ihleft ihright =>
    cases checked with
    | true =>
      exact .compared (.part true (.binary stamp left op right)) (.operand left) (.operand right) rfl ihleft
        ihright
    | false => exact (ihleft.append ihright).one rfl

theorem Side.sidesFirst_nodes (side : Side) : SidesFirst side.nodes := by
  cases side with
  | target i => exact sidesFirst_targets true [i]
  | operand e => exact e.sidesFirst_nodes true

theorem Condition.sidesFirst_nodes (c : Condition) : SidesFirst c.nodes :=
  .compared (.condition c) (.operand c.left) (.operand c.right) rfl (Side.sidesFirst_nodes _)
    (Side.sidesFirst_nodes _)

theorem sidesFirst_outputNodes (values : List Expr) : SidesFirst (Expr.outputNodes values) := by
  induction values with
  | nil => exact .of_none fun _ h => absurd h List.not_mem_nil
  | cons e values ih => exact (e.sidesFirst_nodes _).append ih

namespace Statement

mutual

theorem sidesFirst_nodes : (st : Statement) → SidesFirst st.nodes
  | .assignment stamp target value =>
    .compared (.statement (.assignment stamp target value)) (.target target) (.operand value) rfl
      (Side.sidesFirst_nodes _) (Side.sidesFirst_nodes _)
  | .loop _ test body => (test.sidesFirst_nodes.append (sidesFirst_allNodes body)).one rfl
  | .conditional _ test whenTrue none =>
    (test.sidesFirst_nodes.append (sidesFirst_allNodes whenTrue)).one rfl
  | .conditional _ test whenTrue (some otherwise) =>
    ((test.sidesFirst_nodes.append (sidesFirst_allNodes whenTrue)).append
      (sidesFirst_allNodes otherwise)).one rfl
  | .input _ targets => (sidesFirst_targets true targets).one rfl
  | .output _ values => (sidesFirst_outputNodes values).one rfl

theorem sidesFirst_allNodes : (body : List Statement) → SidesFirst (allNodes body)
  | [] => .of_none fun _ h => absurd h List.not_mem_nil
  | first :: rest => (sidesFirst_nodes first).append (sidesFirst_allNodes rest)

end

end Statement

/-! ## Why a type is not known -/

section

variable {table : SymbolTable} {declared : List (String × Option DeclType)}

/-- The leftmost operand has the type of the whole, and it is what stands for the whole. -/
theorem Expr.exists_leftmost (table : SymbolTable) (checked : Bool) (e : Expr) :
    (∃ stamp token, .part checked (.value stamp token) ∈ e.nodes checked ∧
      e.representative? = some token ∧ e.typeIn table = (value stamp token).typeIn table) ∨
    ∃ stamp, .part checked (.error stamp) ∈ e.nodes checked ∧ e.representative? = none := by
  induction e with
  | value stamp token => exact .inl ⟨stamp, token, List.mem_cons_self, rfl, rfl⟩
  | error stamp => exact .inr ⟨stamp, List.mem_cons_self, rfl⟩
  | unary _ _ _ ih | group _ _ ih =>
    refine ih.imp ?_ ?_
    · rintro ⟨stamp, token, hmem, hsame⟩
      exact ⟨stamp, token, List.mem_append_left _ hmem, hsame⟩
    · rintro ⟨stamp, hmem, hnone⟩
      exact ⟨stamp, List.mem_append_left _ hmem, hnone⟩
  | binary _ _ _ _ ih _ =>
    refine ih.imp ?_ ?_
    · rintro ⟨stamp, token, hmem, hsame⟩
      exact ⟨stamp, token, List.mem_append_left _ (List.mem_append_left _ hmem), hsame⟩
    · rintro ⟨stamp, hmem, hnone⟩
      exact ⟨stamp, List.mem_append_left _ (List.mem_append_left _ hmem), hnone⟩

theorem SymbolTable.Holds.of_undefined (h : table.Holds declared) {name : String}
    (hname : table.typeOf name = .undefined) :
    table.lookup? name = none ∨ declared.lookup name = some none := by
  cases hfound : declared.lookup name with
  | none =>
    left
    rw [← Option.map_eq_none_iff (f := Symbol.type), h name, hfound]
    rfl
  | some type =>
    rw [h.typeOf_of_lookup hfound] at hname
    cases type with
    | none => exact .inr rfl
    | some type => cases type <;> cases hname

/-- Why the type of a side is not known. -/
inductive Side.Cause (table : SymbolTable) (declared : List (String × Option DeclType)) (side : Side) :
    Prop where
  | undeclared {token : Token} {n : Node} (htoken : side.token? = some token) (hn : n ∈ side.nodes)
      (hfound : ⟨n.seq, .notDeclared token⟩ ∈ n.findings table)
  | unread {stamp : Stamp} (hn : .part true (.error stamp) ∈ side.nodes) (hnone : side.token? = none)
  | untyped {token : Token} (htoken : side.token? = some token)
      (hfirst : declared.lookup token.value = some none)

namespace Side

theorem cause_of_name (h : table.Holds declared) {side : Side} {token : Token} {n : Node}
    (htoken : side.token? = some token) (hn : n ∈ side.nodes)
    (hdiagnostics : n.diagnostics table = table.undeclared token)
    (htype : table.typeOf token.value = .undefined) : side.Cause table declared := by
  rcases h.of_undefined htype with hnone | huntyped
  · refine .undeclared htoken hn (List.mem_map_of_mem ?_)
    rw [hdiagnostics, SymbolTable.undeclared, if_pos hnone]
    exact List.mem_cons_self
  · exact .untyped htoken huntyped

theorem exists_cause (h : table.Holds declared) {side : Side}
    (hvalues : ∀ stamp token, .part true (.value stamp token) ∈ side.nodes →
      token.kind ∈ TokenKind.value)
    (hside : side.typeIn table = .undefined) : side.Cause table declared := by
  cases side with
  | target i =>
    rw [typeIn_target] at hside
    exact cause_of_name h (n := .ident true i) rfl List.mem_cons_self rfl hside
  | operand e =>
    rw [typeIn_operand] at hside
    rcases e.exists_leftmost table true with ⟨stamp, token, hn, htoken, hsame⟩ | ⟨stamp, hn, hnone⟩
    · have htype : (Expr.value stamp token).typeIn table = .undefined := hsame.symm.trans hside
      unfold Expr.typeIn at htype
      by_cases hkind : token.kind = .identifier
      · rw [if_pos hkind] at htype
        exact cause_of_name h htoken hn (if_pos hkind) htype
      · -- A number has a type of its own.
        rw [if_neg hkind] at htype
        have hvalue := hvalues stamp token hn
        simp only [TokenKind.value, List.mem_cons, List.not_mem_nil, or_false] at hvalue
        rcases hvalue with hvalue | hvalue | hvalue
        · exact absurd hvalue hkind
        · rw [hvalue] at htype
          cases htype
        · rw [hvalue] at htype
          cases htype
    · exact .unread hn hnone

end Side

end

end PalChecker
