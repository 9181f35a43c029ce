import Mathlib.Logic.Relation
import PalChecker.Proofs.Suppression
import PalChecker.Proofs.Syntax.Spoilt
import PalChecker.Proofs.Typing.FadedTypes
import PalChecker.Proofs.Typing.WellTyped

/-!
# What is left to say of a spoilt program

What could not be read conflicts with nothing. So if a part of a program is spoilt, a check says less
than before, and nothing new.
-/

namespace PalChecker

/-! ## Less is said -/

/-- At the second nodes no more is found than at the first ones. -/
def Quieter (table : SymbolTable) (nodes nodes' : List Node) : Prop :=
  (nodes'.flatMap (Node.findings table)).Sublist (nodes.flatMap (Node.findings table))

namespace Quieter

variable {table : SymbolTable} {a a' b b' : List Node}

theorem refl (table : SymbolTable) (a : List Node) : Quieter table a a := List.Sublist.refl _

theorem append (ha : Quieter table a a') (hb : Quieter table b b') :
    Quieter table (a ++ b) (a' ++ b') := by
  unfold Quieter
  rw [List.flatMap_append, List.flatMap_append]
  exact List.Sublist.append ha hb

theorem of_quiet (h : table.Quiet a') : Quieter table a a' := by
  have hnone : a'.flatMap (Node.findings table) = [] :=
    List.flatMap_eq_nil_iff.mpr fun n hn => List.map_eq_nil_iff.mpr (h n hn)
  unfold Quieter
  rw [hnone]
  exact List.nil_sublist _

theorem one {n n' : Node} (hseq : n'.seq = n.seq)
    (h : n'.diagnostics table = [] ∨ n'.diagnostics table = n.diagnostics table) :
    Quieter table [n] [n'] := by
  rcases h with hnone | hsame
  · exact of_quiet (SymbolTable.quiet_singleton.mpr hnone)
  · unfold Quieter
    rw [List.flatMap_singleton, List.flatMap_singleton, Node.findings, Node.findings, hsame, hseq]

theorem then_idle (ha : Quieter table a a') (n : Node) {n' : Node} (h : n'.diagnostics table = []) :
    Quieter table (a ++ [n]) (a' ++ [n']) :=
  ha.append (of_quiet (SymbolTable.quiet_singleton.mpr h))

end Quieter

/-! ## A spoilt operand -/

section

variable {table : SymbolTable}

theorem Expr.Spoilt.typeIn {e e' : Expr} (h : e.Spoilt e') (table : SymbolTable) :
    e'.typeIn table = .undefined ∨
      e'.typeIn table = e.typeIn table ∧ e'.representative? = e.representative? := by
  induction h with
  | here => exact .inl rfl
  | unary _ ih | group _ ih | left _ ih => exact ih
  | right => exact .inr ⟨rfl, rfl⟩

theorem Expr.Spoilt.conflicts {e e' : Expr} (h : e.Spoilt e') (expected : ValueType) :
    e'.conflicts table expected = [] ∨ e'.conflicts table expected = e.conflicts table expected := by
  rcases h.typeIn table with hnone | ⟨htype, htoken⟩
  · exact .inl (conflicts_of_undefined (.inr hnone))
  · right
    unfold Expr.conflicts
    rw [htype, htoken]

theorem Expr.Spoilt.conflicts_expected {e e' : Expr} (h : e.Spoilt e') (other : Expr) :
    other.conflicts table (e'.typeIn table) = [] ∨
      other.conflicts table (e'.typeIn table) = other.conflicts table (e.typeIn table) := by
  rcases h.typeIn table with hnone | ⟨htype, -⟩
  · exact .inl (conflicts_of_undefined (.inl hnone))
  · exact .inr (by rw [htype])

theorem Expr.Spoilt.quieter {e e' : Expr} (h : e.Spoilt e') :
    Quieter table (e.nodes true) (e'.nodes true) := by
  induction h with
  | here => exact .of_quiet (SymbolTable.quiet_singleton.mpr rfl)
  | unary _ ih | group _ ih => exact ih.then_idle _ rfl
  | left h ih => exact (ih.append (.refl _ _)).append (.one rfl (h.conflicts_expected _))
  | right h ih => exact ((Quieter.refl _ _).append ih).append (.one rfl (h.conflicts _))

theorem Expr.Spoilt.quieter_outputValue {e e' : Expr} (h : e.Spoilt e') :
    Quieter table (e.nodes (decide ¬e.IsSingle)) (e'.nodes (decide ¬e'.IsSingle)) := by
  by_cases hsingle' : e'.IsSingle
  · rw [decide_eq_false (not_not_intro hsingle')]
    exact .of_quiet (Typing.quiet_unchecked table e')
  · have hsingle : ¬e.IsSingle := mt h.isSingle hsingle'
    rw [decide_eq_true hsingle, decide_eq_true hsingle']
    exact h.quieter

theorem Condition.Spoilt.quieter {c c' : Condition} (h : c.Spoilt c') :
    Quieter table c.nodes c'.nodes := by
  cases h with
  | left h => exact (h.quieter.append (.refl _ _)).append (.one rfl (h.conflicts_expected _))
  | right h => exact ((Quieter.refl _ _).append h.quieter).append (.one rfl (h.conflicts _))

/-! ## A spoilt statement -/

theorem quieter_block {st st' : Statement} (before after : List Statement)
    (h : Quieter table st.nodes st'.nodes) :
    Quieter table (Statement.allNodes (before ++ st :: after))
      (Statement.allNodes (before ++ st' :: after)) := by
  rw [Statement.allNodes_append, Statement.allNodes_append, Statement.allNodes, Statement.allNodes]
  exact (Quieter.refl _ _).append (h.append (.refl _ _))

theorem quieter_outputNodes {e e' : Expr} (before after : List Expr) (h : e.Spoilt e') :
    Quieter table (Expr.outputNodes (before ++ e :: after)) (Expr.outputNodes (before ++ e' :: after)) := by
  unfold Expr.outputNodes
  rw [List.flatMap_append, List.flatMap_append, List.flatMap_cons, List.flatMap_cons]
  exact (Quieter.refl _ _).append (h.quieter_outputValue.append (.refl _ _))

theorem Statement.Spoilt.quieter {st st' : Statement} (h : st.Spoilt st') :
    Quieter table st.nodes st'.nodes := by
  -- The parts that are not spoilt are as quiet as before, and so is the node of the statement itself.
  induction h with
  | @assignment _ target _ _ h =>
    exact (Quieter.refl _ [.ident true target]).append
      (h.quieter.append (.one rfl (h.conflicts (table.typeOf target.token.value))))
  | loopTest h => exact (h.quieter.append (.refl _ _)).then_idle _ rfl
  | loopBody _ ih => exact ((Quieter.refl _ _).append (quieter_block _ _ ih)).then_idle _ rfl
  | @test _ _ _ _ otherwise h =>
    cases otherwise with
    | none => exact (h.quieter.append (.refl _ _)).then_idle _ rfl
    | some block => exact ((h.quieter.append (.refl _ _)).append (.refl _ _)).then_idle _ rfl
  | @whenTrue _ test before after _ _ otherwise _ ih =>
    have hblock := (Quieter.refl table test.nodes).append (quieter_block before after ih)
    cases otherwise with
    | none => exact hblock.then_idle _ rfl
    | some block => exact (hblock.append (.refl _ _)).then_idle _ rfl
  | otherwise _ ih => exact ((Quieter.refl _ _).append (quieter_block _ _ ih)).then_idle _ rfl
  | output h => exact (quieter_outputNodes _ _ h).then_idle _ rfl

end

namespace Typing

/-! ## Programs -/

/-- One part that is spoilt takes findings away, and adds and changes none. -/
theorem sublist_of_spoilt {p p' : Program} (h : p.Spoilt p') :
    ((check p').map Finding.untyped).Sublist ((check p).map Finding.untyped) := by
  cases h with
  | @type before after d hp =>
    have hfades := fades_untyped before after d State.empty.openScope
    have hscope : p.scope.Fades (declarations (before ++ { d with type := none } :: after)
        State.empty.openScope).table := by
      unfold Program.scope
      rw [hp]
      exact hfades.table
    -- The groups are refused as before, since the names are the same.
    rw [check_eq_append, check_eq_append, List.map_append, List.map_append, hp, hfades.findings]
    refine (List.Sublist.refl _).append (List.Sublist.map _ (hscope.sublist_findings fun d => ?_))
    exact Statement.group_not_mem_allNodes d p.statements
  | @statement before after st st' hp h =>
    -- The groups are the same, and around the statement nothing changes.
    rw [check_eq_append, check_eq_append, hp]
    refine List.Sublist.map _ ((List.Sublist.refl _).append ?_)
    exact quieter_block before after h.quieter

/-- However many parts of a program are spoilt, what is found then was found before, in the same order. -/
theorem findings_of_spoilt_are_sublist {p p' : Program} (h : Relation.ReflTransGen Program.Spoilt p p') :
    ((check p').map Finding.untyped).Sublist ((check p).map Finding.untyped) := by
  induction h with
  | refl => exact List.Sublist.refl _
  | tail _ hstep ih => exact (sublist_of_spoilt hstep).trans ih

/-- A name declared twice loses its type, and then the value of an output is spoilt. -/
theorem findings_of_spoilt_are_sublist_of_redeclaration :
    let name (text : String) : Token := ⟨.identifier, text, .start⟩
    let ident (seq : SeqNumber) (text : String) : Ident := ⟨⟨.start, seq⟩, name text⟩
    let value (seq : SeqNumber) (text : String) : Expr := .value ⟨.start, seq⟩ (name text)
    let program (type : Option DeclType) (right : Expr) : Program :=
      ⟨some (name "p"),
        [⟨⟨.start, 2⟩, [ident 1 "a"], type⟩, ⟨⟨.start, 5⟩, [ident 3 "a", ident 4 "b"], some .real⟩],
        [.output ⟨.start, 12⟩ [.binary ⟨.start, 8⟩ (value 6 "a") .add (value 7 "b"),
          .binary ⟨.start, 11⟩ (value 9 "b") .mul right]], .start⟩
    let p := program (some .integer) (value 10 "c")
    let p' := program none (.error ⟨.start, 13⟩)
    Relation.ReflTransGen Program.Spoilt p p' ∧
      (check p = [⟨5, .alreadyDeclared (name "a") ⟨name "a", .integer⟩⟩,
          ⟨8, .typeConflict (name "b") .real .integer⟩, ⟨10, .notDeclared (name "c")⟩] ∧
        check p' = [⟨5, .alreadyDeclared (name "a") ⟨name "a", .undefined⟩⟩]) ∧
      ((check p').map Finding.untyped).Sublist ((check p).map Finding.untyped) := by
  intro name ident value program p p'
  have htype : p.Spoilt (program none (value 10 "c")) := @Program.Spoilt.type p [] _ _ rfl
  have hvalue : Expr.Spoilt (.binary ⟨.start, 11⟩ (value 9 "b") .mul (value 10 "c"))
      (.binary ⟨.start, 11⟩ (value 9 "b") .mul (.error ⟨.start, 13⟩)) := .right (.here _ _)
  have hpart : (program none (value 10 "c")).Spoilt p' :=
    @Program.Spoilt.statement _ [] [] _ _ rfl (@Statement.Spoilt.output _ [_] [] _ _ hvalue)
  have hspoilt := Relation.ReflTransGen.tail (.single htype) hpart
  exact ⟨hspoilt, ⟨by decide +kernel, by decide +kernel⟩, findings_of_spoilt_are_sublist hspoilt⟩

end Typing

end PalChecker
