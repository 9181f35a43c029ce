import PalChecker.Proofs.Syntax.Nodes

/-!
# Programs with a part spoilt

In a spoilt program one operand could not be read, however large it was, or one group has lost its type.
All else is as it was.
-/

namespace PalChecker

/-- In place of one part of an expression, or of all of it, there is an error. -/
inductive Expr.Spoilt : Expr → Expr → Prop where
  | here (e : Expr) (stamp : Stamp) : Spoilt e (.error stamp)
  | unary {stamp : Stamp} {sign : Sign} {operand operand' : Expr} :
    Spoilt operand operand' → Spoilt (.unary stamp sign operand) (.unary stamp sign operand')
  | group {stamp : Stamp} {inner inner' : Expr} :
    Spoilt inner inner' → Spoilt (.group stamp inner) (.group stamp inner')
  | left {stamp : Stamp} {left left' : Expr} {op : BinaryOp} {right : Expr} :
    Spoilt left left' → Spoilt (.binary stamp left op right) (.binary stamp left' op right)
  | right {stamp : Stamp} {left : Expr} {op : BinaryOp} {right right' : Expr} :
    Spoilt right right' → Spoilt (.binary stamp left op right) (.binary stamp left op right')

inductive Condition.Spoilt : Condition → Condition → Prop where
  | left {c : Condition} {left : Expr} : c.left.Spoilt left → Spoilt c { c with left }
  | right {c : Condition} {right : Expr} : c.right.Spoilt right → Spoilt c { c with right }

inductive Statement.Spoilt : Statement → Statement → Prop where
  | assignment {stamp : Stamp} {target : Ident} {value value' : Expr} :
    value.Spoilt value' → Spoilt (.assignment stamp target value) (.assignment stamp target value')
  | loopTest {stamp : Stamp} {test test' : Condition} {body : List Statement} :
    test.Spoilt test' → Spoilt (.loop stamp test body) (.loop stamp test' body)
  | loopBody {stamp : Stamp} {test : Condition} {before after : List Statement} {st st' : Statement} :
    Spoilt st st' →
      Spoilt (.loop stamp test (before ++ st :: after)) (.loop stamp test (before ++ st' :: after))
  | test {stamp : Stamp} {test test' : Condition} {whenTrue : List Statement}
      {otherwise : Option (List Statement)} :
    test.Spoilt test' →
      Spoilt (.conditional stamp test whenTrue otherwise) (.conditional stamp test' whenTrue otherwise)
  | whenTrue {stamp : Stamp} {test : Condition} {before after : List Statement} {st st' : Statement}
      {otherwise : Option (List Statement)} :
    Spoilt st st' →
      Spoilt (.conditional stamp test (before ++ st :: after) otherwise)
        (.conditional stamp test (before ++ st' :: after) otherwise)
  | otherwise {stamp : Stamp} {test : Condition} {whenTrue before after : List Statement}
      {st st' : Statement} :
    Spoilt st st' →
      Spoilt (.conditional stamp test whenTrue (some (before ++ st :: after)))
        (.conditional stamp test whenTrue (some (before ++ st' :: after)))
  | output {stamp : Stamp} {before after : List Expr} {e e' : Expr} :
    e.Spoilt e' → Spoilt (.output stamp (before ++ e :: after)) (.output stamp (before ++ e' :: after))

inductive Program.Spoilt : Program → Program → Prop where
  | type {p : Program} {before after : List Declaration} {d : Declaration}
      (hp : p.declarations = before ++ d :: after) :
    Spoilt p { p with declarations := before ++ { d with type := none } :: after }
  | statement {p : Program} {before after : List Statement} {st st' : Statement}
      (hp : p.statements = before ++ st :: after) :
    st.Spoilt st' → Spoilt p { p with statements := before ++ st' :: after }

/-! ## Around the spoilt part -/

theorem Expr.Spoilt.isSingle {e e' : Expr} (h : e.Spoilt e') (hsingle : e.IsSingle) : e'.IsSingle := by
  induction h with
  | here => trivial
  | unary _ ih | group _ ih => exact ih hsingle
  | left | right => exact absurd hsingle not_false

theorem Statement.allNodes_append (a b : List Statement) :
    allNodes (a ++ b) = allNodes a ++ allNodes b := by
  induction a with
  | nil => rfl
  | cons first a ih => rw [List.cons_append, allNodes, ih, allNodes, List.append_assoc]

end PalChecker
