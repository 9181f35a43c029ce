import PalChecker.Syntax.Tree

/-!
# Trees without their numbers

Two readings of the same tokens give trees that differ in the numbers of their nodes alone: the places
and the tokens are the same.
-/

namespace PalChecker

def Stamp.unnumbered (stamp : Stamp) : Stamp := { stamp with seq := 0 }

def Ident.unnumbered (i : Ident) : Ident := { i with stamp := i.stamp.unnumbered }

def Expr.unnumbered : Expr → Expr
  | value stamp token => value stamp.unnumbered token
  | unary stamp sign operand => unary stamp.unnumbered sign operand.unnumbered
  | binary stamp left op right => binary stamp.unnumbered left.unnumbered op right.unnumbered
  | group stamp inner => group stamp.unnumbered inner.unnumbered
  | error stamp => error stamp.unnumbered

def Condition.unnumbered (c : Condition) : Condition :=
  { stamp := c.stamp.unnumbered, left := c.left.unnumbered, op := c.op, right := c.right.unnumbered }

namespace Statement

mutual

def unnumbered : Statement → Statement
  | assignment stamp target value => assignment stamp.unnumbered target.unnumbered value.unnumbered
  | loop stamp test body => loop stamp.unnumbered test.unnumbered (allUnnumbered body)
  | conditional stamp test whenTrue none =>
    conditional stamp.unnumbered test.unnumbered (allUnnumbered whenTrue) none
  | conditional stamp test whenTrue (some otherwise) =>
    conditional stamp.unnumbered test.unnumbered (allUnnumbered whenTrue)
      (some (allUnnumbered otherwise))
  | input stamp targets => input stamp.unnumbered (targets.map Ident.unnumbered)
  | output stamp values => output stamp.unnumbered (values.map Expr.unnumbered)

def allUnnumbered : List Statement → List Statement
  | [] => []
  | first :: rest => first.unnumbered :: allUnnumbered rest

end

end Statement

def Declaration.unnumbered (d : Declaration) : Declaration :=
  { stamp := d.stamp.unnumbered, idents := d.idents.map Ident.unnumbered, type := d.type }

/-- A tree without the discovery numbers of its nodes. -/
def Program.unnumbered (p : Program) : Program where
  name := p.name
  declarations := p.declarations.map Declaration.unnumbered
  statements := Statement.allUnnumbered p.statements
  location := p.location

/-- Equal but for what `erase` leaves out. -/
def AlikeBy {α : Type} (erase : α → α) (a b : α) : Prop := erase a = erase b

theorem AlikeBy.cons {α : Type} {erase : α → α} {a b : α} {as bs : List α} (h : AlikeBy erase a b)
    (hs : AlikeBy (List.map erase) as bs) : AlikeBy (List.map erase) (a :: as) (b :: bs) :=
  List.cons_eq_cons.mpr ⟨h, hs⟩

end PalChecker
