import PalChecker.Proofs.Parser.CleanRuns
import PalChecker.Proofs.Parser.Runs

/-!
# Precedence in every tree

The operands of an operator bind tighter than it in every tree, whatever was recovered from. Where an
operand is missing, what is read for it is a factor or nothing, so a sign may then stand behind a sign.
-/

namespace PalChecker

/-! ## Shapes of expressions -/

namespace Expr

/-- Its operands bind tighter than it, except the left one of two, which may bind as tight. -/
def Nests : Expr → Prop
  | unary _ _ operand => ¬operand.IsBinary
  | binary _ left op right => if op.IsAdditive then ¬right.IsSum else ¬left.IsSum ∧ ¬right.IsBinary
  | value .. | group .. | error _ => True

def IsUnary : Expr → Prop
  | unary .. => True
  | value .. | binary .. | group .. | error _ => False

/-- Nothing was read for it, or a sign behind a sign. -/
def IsMakeshift : Expr → Prop
  | unary _ _ operand => operand.IsUnary
  | error _ => True
  | value .. | binary .. | group .. => False

theorem not_isUnary_of_isOperand {e : Expr} (h : e.IsOperand) : ¬e.IsUnary := by
  cases e with
  | value | group => exact not_false
  | unary | binary | error => exact absurd h not_false

end Expr

/-! ## The expressions among the nodes -/

def Node.part? : Node → Option Expr
  | part _ e => some e
  | ident .. | condition _ | statement _ | group _ => none

/-- All expressions of a tree, each after its parts. -/
def Program.parts (p : Program) : List Expr := p.nodes.filterMap Node.part?

/-- `P` holds of all expressions among the nodes. -/
def PartsAre (P : Expr → Prop) (nodes : List Node) : Prop := ∀ e ∈ nodes.filterMap Node.part?, P e

namespace PartsAre

variable {P : Expr → Prop} {a b : List Node}

theorem nil : PartsAre P [] := fun _ h => absurd h List.not_mem_nil

theorem append (ha : PartsAre P a) (hb : PartsAre P b) : PartsAre P (a ++ b) := by
  unfold PartsAre
  rw [List.filterMap_append]
  exact List.forall_mem_append.mpr ⟨ha, hb⟩

theorem part {checked : Bool} {e : Expr} (h : P e) : PartsAre P [.part checked e] :=
  List.forall_mem_singleton.mpr h

theorem idents (checked : Bool) (idents : List Ident) : PartsAre P (idents.map (.ident checked)) := by
  intro e he
  obtain ⟨n, hn, hpart⟩ := List.mem_filterMap.mp he
  obtain ⟨i, -, rfl⟩ := List.mem_map.mp hn
  cases hpart

theorem group (h : PartsAre P a) (d : Declaration) : PartsAre P (a ++ [.group d]) :=
  h.append fun _ he => absurd he List.not_mem_nil

theorem statement (h : PartsAre P a) (s : Statement) : PartsAre P (a ++ [.statement s]) :=
  h.append fun _ he => absurd he List.not_mem_nil

theorem condition {c : Condition} (hleft : PartsAre P (c.left.nodes true))
    (hright : PartsAre P (c.right.nodes true)) : PartsAre P c.nodes :=
  (hleft.append hright).append fun _ he => absurd he List.not_mem_nil

theorem assignment (stamp : Stamp) (target : Ident) {value : Expr} (h : PartsAre P (value.nodes true)) :
    PartsAre P (Statement.assignment stamp target value).nodes :=
  ((idents true [target]).append h).statement _

theorem flatMap {α : Type} {l : List α} {f : α → List Node} (h : ∀ x ∈ l, PartsAre P (f x)) :
    PartsAre P (l.flatMap f) := by
  induction l with
  | nil => exact .nil
  | cons x l ih =>
    obtain ⟨hx, hl⟩ := List.forall_mem_cons.mp h
    exact hx.append (ih hl)

theorem declarations (groups : List Declaration) : PartsAre P (groups.flatMap Declaration.nodes) :=
  .flatMap fun d _ => (idents false d.idents).group d

theorem body {body : List Statement} (h : ∀ s ∈ body, PartsAre P s.nodes) :
    PartsAre P (Statement.allNodes body) := by
  induction body with
  | nil => exact .nil
  | cons first rest ih =>
    obtain ⟨hfirst, hrest⟩ := List.forall_mem_cons.mp h
    exact hfirst.append (ih hrest)

end PartsAre

/-! ## Trees of programs without a syntax error -/

theorem Expr.Canonical.parts {e : Expr} (h : e.Canonical) (checked : Bool) :
    PartsAre (¬Expr.IsMakeshift ·) (e.nodes checked) := by
  induction e with
  | value => exact .part not_false
  | unary _ _ _ ih => exact (ih h.2).append (.part (not_isUnary_of_isOperand h.1))
  | binary _ _ _ _ ihleft ihright =>
    exact ((ihleft h.1).append (ihright h.2.1)).append (.part not_false)
  | group _ _ ih => exact (ih h).append (.part not_false)
  | error => exact absurd h not_false

theorem Condition.Canonical.parts {c : Condition} (h : c.Canonical) :
    PartsAre (¬Expr.IsMakeshift ·) c.nodes := .condition (h.1.parts true) (h.2.2.parts true)

theorem Statement.Canonical.parts {s : Statement} (h : s.Canonical) :
    PartsAre (¬Expr.IsMakeshift ·) s.nodes := by
  induction h with
  | assignment _ hvalue => exact .assignment _ _ (hvalue.parts true)
  | loop htest _ ih => exact (htest.parts.append (.body ih)).statement _
  | conditional htest _ ih => exact (htest.parts.append (.body ih)).statement _
  | alternative htest _ _ ih ih' =>
    exact ((htest.parts.append (.body ih)).append (.body ih')).statement _
  | input => exact (PartsAre.idents true _).statement _
  | output _ hvalues => exact (PartsAre.flatMap fun e he => (hvalues e he).parts _).statement _

theorem Program.Canonical.parts {p : Program} (h : p.Canonical) :
    PartsAre (¬Expr.IsMakeshift ·) p.nodes :=
  (PartsAre.declarations _).append (.body fun s hs => (h.statements s hs).parts)

namespace Parser

/-! ## Trees of all programs -/

section

variable {P : Expr → Prop}

theorem parts_part_rules :
    PartRules (fun _ e _ => ∀ checked, PartsAre P (e.nodes checked)) (fun _ c _ => PartsAre P c.nodes)
      (fun _ _ _ => True) (fun _ _ _ => True) (fun _ _ _ => True)
      (fun _ values _ => PartsAre P (Expr.outputNodes values)) where
  test left right := .condition (left true) (right true)
  name _ := trivial
  no_name _ := trivial
  names_stop _ := trivial
  names_step _ _ _ := trivial
  names _ _ := trivial
  values_stop _ := .nil
  values_step _ first rest := (first _).append rest

theorem parts_statement_rules (herror : ∀ stamp, P (.error stamp)) :
    StatementRules (fun _ e _ => ∀ checked, PartsAre P (e.nodes checked))
      (fun _ c _ => PartsAre P c.nodes) (fun _ _ _ => True)
      (fun _ values _ => PartsAre P (Expr.outputNodes values)) (fun _ s _ => PartsAre P s.nodes)
      fun _ _ body _ => PartsAre P (Statement.allNodes body) where
  assignment _ _ value := .assignment _ _ (value true)
  target _ _ := .assignment _ _ (.part (herror _))
  loop _ test body := (test.append body).statement _
  conditional _ test whenTrue _ := (test.append whenTrue).statement _
  alternative _ test whenTrue _ otherwise := ((test.append whenTrue).append otherwise).statement _
  input _ _ := (PartsAre.idents true _).statement _
  output _ first rest := ((first _).append rest).statement _
  stop _ := .nil
  step _ _ first rest := first.append rest
  skip _ _ rest := rest

/-- What holds of the parts of every expression that is read, and of one in whose place nothing is, holds of
all parts of a program. -/
theorem parts_parse (hexpression : ∀ s checked, PartsAre P ((expression s).value.nodes checked))
    (herror : ∀ stamp, P (.error stamp)) (tokens : List Token) :
    PartsAre P (parse tokens).program.nodes := by
  have htest := parts_part_rules.run_test hexpression
  have hvalues := parts_part_rules.run_moreValues hexpression
  exact (PartsAre.declarations _).append
    ((parts_statement_rules herror).run hexpression htest (fun _ => trivial) hvalues _ _)

end

/-- All its parts nest. -/
def Nested (e : Expr) : Prop := ∀ checked, PartsAre Expr.Nests (e.nodes checked)

namespace Nested

variable {stamp : Stamp} {left right : Expr} {op : BinaryOp}

theorem binary (hleft : Nested left) (hright : Nested right) (h : (Expr.binary stamp left op right).Nests) :
    Nested (.binary stamp left op right) :=
  fun checked => ((hleft checked).append (hright checked)).append (.part h)

theorem sum (hop : op.IsAdditive) (hleft : Nested left) (hright : Nested right) (hshape : ¬right.IsSum) :
    Nested (.binary stamp left op right) := by
  refine hleft.binary hright ?_
  rw [Expr.Nests, if_pos hop]
  exact hshape

theorem product (hop : ¬op.IsAdditive) (hleft : Nested left) (hright : Nested right)
    (hshape : ¬left.IsSum ∧ ¬right.IsBinary) : Nested (.binary stamp left op right) := by
  refine hleft.binary hright ?_
  rw [Expr.Nests, if_neg hop]
  exact hshape

end Nested

theorem nesting_expression_rules :
    ExpressionRules (fun _ e _ => Nested e) (fun _ e _ => Nested e ∧ ¬e.IsSum)
      (fun _ e _ => Nested e ∧ ¬e.IsBinary) (fun _ e _ => Nested e ∧ ¬e.IsBinary)
      (fun left _ e _ => Nested left → Nested e)
      (fun left _ e _ => Nested left → ¬left.IsSum → Nested e ∧ ¬e.IsSum) where
  sum first rest := rest first.1
  sums_stop _ := id
  sums_step h right rest := fun hleft =>
    rest (.sum (BinaryOp.additive?_eq_some_iff.mp h).1 hleft right.1 right.2)
  product first rest := rest first.1 (Expr.not_isSum_of_not_isBinary first.2)
  products_stop _ := And.intro
  products_step h right rest := fun hleft hshape => by
    have hop := (BinaryOp.multiplicative?_eq_some_iff.mp h).1
    exact rest (.product hop hleft right.1 ⟨hshape, right.2⟩) hop
  signed _ operand := ⟨fun checked => (operand.1 checked).append (.part operand.2), not_false⟩
  unsigned _ operand := operand
  value _ := ⟨fun _ => .part trivial, not_false⟩
  group _ inner := ⟨fun checked => (inner checked).append (.part trivial), not_false⟩
  retry _ _ factor := factor
  error _ _ := ⟨fun _ => .part trivial, not_false⟩

/-- In every tree the operands of an operator bind tighter than it, except a left one of two that binds as
tight. Where a sign stands behind a sign, or nothing was read, a syntax error was reported. -/
theorem operands_bind_tighter {tokens : List Token} {e : Expr} (h : e ∈ (parse tokens).program.parts) :
    e.Nests ∧ (e.IsMakeshift → (parse tokens).errors ≠ []) := by
  have hnests := parts_parse nesting_expression_rules.run.1 (fun _ => trivial) tokens e h
  refine ⟨hnests, fun hmakeshift hclean => ?_⟩
  exact (canonical_of_clean hclean).1.parts e h hmakeshift

/-- The star is skipped, and the name behind it has a sign of its own. -/
theorem operands_bind_tighter_of_signs :
    let name : Token := ⟨.identifier, "a", .start⟩
    let tokens : List Token :=
      [.fixed (.keyword .output), .fixed (.punct .minus), .fixed (.punct .star), .fixed (.punct .minus), name]
    let e : Expr := .unary ⟨.start, 5⟩ .minus (.unary ⟨.start, 4⟩ .minus (.value ⟨.start, 3⟩ name))
    (e ∈ (parse tokens).program.parts ∧ e.IsMakeshift) ∧ e.Nests ∧ (parse tokens).errors ≠ [] := by
  intro name tokens e
  have he : e ∈ (parse tokens).program.parts := by decide +kernel
  obtain ⟨hnests, herrors⟩ := operands_bind_tighter he
  exact ⟨⟨he, trivial⟩, hnests, herrors trivial⟩

end Parser

end PalChecker
