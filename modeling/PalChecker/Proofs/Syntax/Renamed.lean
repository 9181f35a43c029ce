import PalChecker.Syntax.Tree

/-!
# Trees over other tokens

Tokens can be exchanged for others of the same kinds. The tree over the new tokens has the shape and the
numbers of the old one.
-/

namespace PalChecker

/-- Other tokens in place of the old ones: of the same kinds, and at places that depend on the old places
alone. -/
structure Renaming where
  token : Token → Token
  place : Location → Location
  kind_token : ∀ t, (token t).kind = t.kind
  location_token : ∀ t, (token t).location = place t.location

/-- Every token stays as it is. -/
def Renaming.identity : Renaming := ⟨id, id, fun _ => rfl, fun _ => rfl⟩

variable (r : Renaming)

def Stamp.renamed (stamp : Stamp) : Stamp := { stamp with location := r.place stamp.location }

def Ident.renamed (i : Ident) : Ident := ⟨i.stamp.renamed r, r.token i.token⟩

def Expr.renamed : Expr → Expr
  | value stamp token => value (stamp.renamed r) (r.token token)
  | unary stamp sign operand => unary (stamp.renamed r) sign operand.renamed
  | binary stamp left op right => binary (stamp.renamed r) left.renamed op right.renamed
  | group stamp inner => group (stamp.renamed r) inner.renamed
  | error stamp => error (stamp.renamed r)

def Condition.renamed (c : Condition) : Condition :=
  { stamp := c.stamp.renamed r, left := c.left.renamed r, op := c.op, right := c.right.renamed r }

namespace Statement

mutual

def renamed : Statement → Statement
  | assignment stamp target value =>
    assignment (stamp.renamed r) (target.renamed r) (value.renamed r)
  | loop stamp test body => loop (stamp.renamed r) (test.renamed r) (allRenamed body)
  | conditional stamp test whenTrue none =>
    conditional (stamp.renamed r) (test.renamed r) (allRenamed whenTrue) none
  | conditional stamp test whenTrue (some otherwise) =>
    conditional (stamp.renamed r) (test.renamed r) (allRenamed whenTrue) (some (allRenamed otherwise))
  | input stamp targets => input (stamp.renamed r) (targets.map (Ident.renamed r))
  | output stamp values => output (stamp.renamed r) (values.map (Expr.renamed r))

def allRenamed : List Statement → List Statement
  | [] => []
  | first :: rest => first.renamed :: allRenamed rest

end

end Statement

def Declaration.renamed (d : Declaration) : Declaration :=
  { stamp := d.stamp.renamed r, idents := d.idents.map (Ident.renamed r), type := d.type }

def Program.renamed (p : Program) : Program where
  name := p.name.map r.token
  declarations := p.declarations.map (Declaration.renamed r)
  statements := Statement.allRenamed r p.statements
  location := r.place p.location

/-! ## The same tokens -/

namespace Renaming

@[simp] theorem renamed_expr_identity (e : Expr) : e.renamed identity = e := by
  induction e with
  | value | error => rfl
  | unary _ _ _ ih | group _ _ ih =>
    rw [Expr.renamed, ih]
    rfl
  | binary _ _ _ _ ihleft ihright =>
    rw [Expr.renamed, ihleft, ihright]
    rfl

@[simp] theorem map_ident_identity (idents : List Ident) :
    idents.map (Ident.renamed identity) = idents := List.map_id idents

@[simp] theorem map_expr_identity (values : List Expr) :
    values.map (Expr.renamed identity) = values :=
  (List.map_congr_left fun e _ => renamed_expr_identity e).trans (List.map_id values)

theorem renamed_condition_identity (c : Condition) : c.renamed identity = c := by
  rw [Condition.renamed, renamed_expr_identity, renamed_expr_identity]
  rfl

mutual

theorem renamed_statement_identity : (st : Statement) → st.renamed identity = st
  | .assignment _ _ value => by
    rw [Statement.renamed, renamed_expr_identity]
    rfl
  | .loop _ test body => by
    rw [Statement.renamed, renamed_condition_identity, renamed_block_identity body]
    rfl
  | .conditional _ test whenTrue none => by
    rw [Statement.renamed, renamed_condition_identity, renamed_block_identity whenTrue]
    rfl
  | .conditional _ test whenTrue (some otherwise) => by
    rw [Statement.renamed, renamed_condition_identity, renamed_block_identity whenTrue,
      renamed_block_identity otherwise]
    rfl
  | .input _ targets => by
    rw [Statement.renamed, map_ident_identity]
    rfl
  | .output _ values => by
    rw [Statement.renamed, map_expr_identity]
    rfl

theorem renamed_block_identity : (body : List Statement) → Statement.allRenamed identity body = body
  | [] => rfl
  | first :: rest => by
    rw [Statement.allRenamed, renamed_statement_identity first, renamed_block_identity rest]

end

theorem renamed_program_identity (p : Program) : p.renamed identity = p := by
  have hgroups : p.declarations.map (Declaration.renamed identity) = p.declarations := by
    refine (List.map_congr_left fun d _ => ?_).trans (List.map_id _)
    rw [Declaration.renamed, map_ident_identity]
    rfl
  rw [Program.renamed, hgroups, renamed_block_identity]
  cases p
  simp [identity]

end Renaming

end PalChecker
