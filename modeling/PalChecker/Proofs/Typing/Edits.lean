import PalChecker.Proofs.Suppression

/-!
# Edits of a program

What is found in a statement depends on the groups and on the statement alone. An edit of a body, however
deep it is nested, changes just what was found in the statements that it touches.
-/

namespace PalChecker

/-! ## Gaps -/

/-- A place for statements, at the top level of a program or in a nested body, and what is around it. -/
inductive Gap where
  | here (before after : List Statement)
  | inLoop (before : List Statement) (stamp : Stamp) (test : Condition) (body : Gap)
      (after : List Statement)
  | inWhenTrue (before : List Statement) (stamp : Stamp) (test : Condition) (whenTrue : Gap)
      (otherwise : Option (List Statement)) (after : List Statement)
  | inOtherwise (before : List Statement) (stamp : Stamp) (test : Condition) (whenTrue : List Statement)
      (otherwise : Gap) (after : List Statement)

def Gap.fill : Gap → List Statement → List Statement
  | here before after, body => before ++ body ++ after
  | inLoop before stamp test inner after, body => before ++ .loop stamp test (inner.fill body) :: after
  | inWhenTrue before stamp test inner otherwise after, body =>
    before ++ .conditional stamp test (inner.fill body) otherwise :: after
  | inOtherwise before stamp test whenTrue inner after, body =>
    before ++ .conditional stamp test whenTrue (some (inner.fill body)) :: after

namespace Typing

/-! ## Statement by statement -/

theorem State.Visits.table_eq {s t : State} {nodes : List Node} (h : s.Visits nodes t)
    (hno : ∀ d, .group d ∉ nodes) : t.table = s.table :=
  h.table.trans (SymbolTable.after_of_no_group hno s.table)

theorem State.isBlind_of_visits {f : State → State} {nodes : List Node}
    (h : ∀ s : State, s.Visits nodes (f s)) : IsBlind f := by
  intro s
  refine ⟨(h s).table.trans (h s.cleared).table.symm, (h s).findings.trans ?_⟩
  rw [(h s.cleared).findings]
  rfl

theorem table_condition (c : Condition) (s : State) : (condition c s).table = s.table :=
  (visits_condition c s).table_eq fun d => c.group_not_mem_nodes d

theorem table_statement (st : Statement) (s : State) : (statement st s).table = s.table :=
  (visits_statement st s).table_eq fun d => st.group_not_mem_nodes d

theorem table_statements (body : List Statement) (s : State) : (statements body s).table = s.table :=
  (visits_statements body s).table_eq fun d => Statement.group_not_mem_allNodes d body

theorem findings_statement (st : Statement) (s : State) :
    (statement st s).findings = s.findings ++ (statement st s.cleared).findings :=
  (State.isBlind_of_visits (visits_statement st) s).2

theorem findings_statements (body : List Statement) (s : State) :
    (statements body s).findings =
      s.findings ++ body.flatMap fun st => (statement st s.cleared).findings := by
  induction body generalizing s with
  | nil => exact (List.append_nil _).symm
  | cons first rest ih =>
    rw [statements, ih, findings_statement, State.cleared_of_table (table_statement first s),
      List.flatMap_cons, List.append_assoc]

/-! ## What is found in each part -/

/-- The names of the groups are declared, and nothing is noticed. -/
def declared (groups : List Declaration) : State := (declarations groups State.empty.openScope).cleared

def groupFindings (groups : List Declaration) : List Finding :=
  (declarations groups State.empty.openScope).findings

def conditionFindings (groups : List Declaration) (c : Condition) : List Finding :=
  (condition c (declared groups)).findings

def statementFindings (groups : List Declaration) (st : Statement) : List Finding :=
  (statement st (declared groups)).findings

section

variable (groups : List Declaration)

theorem findings_statements_after_condition (test : Condition) (body : List Statement) :
    (statements body (condition test (declared groups))).findings =
      conditionFindings groups test ++ body.flatMap (statementFindings groups) := by
  rw [findings_statements, State.cleared_of_table (table_condition test _)]
  rfl

theorem statementFindings_loop (stamp : Stamp) (test : Condition) (body : List Statement) :
    statementFindings groups (.loop stamp test body) =
      conditionFindings groups test ++ body.flatMap (statementFindings groups) := by
  rw [statementFindings, statement, findings_statements_after_condition]

theorem statementFindings_conditional (stamp : Stamp) (test : Condition) (whenTrue : List Statement)
    (otherwise : Option (List Statement)) :
    statementFindings groups (.conditional stamp test whenTrue otherwise) =
      conditionFindings groups test ++
        (whenTrue ++ otherwise.getD []).flatMap (statementFindings groups) := by
  cases otherwise with
  | none =>
    rw [statementFindings, statement, findings_statements_after_condition, Option.getD_none,
      List.append_nil]
  | some otherwise =>
    have htable := (table_statements whenTrue (condition test (declared groups))).trans (table_condition test _)
    rw [statementFindings, statement, findings_statements, findings_statements_after_condition,
      State.cleared_of_table htable, Option.getD_some, List.flatMap_append, List.append_assoc]
    rfl

/-- What is found around a gap does not depend on what fills it. -/
theorem exists_findings_around (gap : Gap) : ∃ before after, ∀ body,
    (gap.fill body).flatMap (statementFindings groups) =
      before ++ body.flatMap (statementFindings groups) ++ after := by
  let found := List.flatMap (statementFindings groups)
  -- From the outermost body inwards: each adds what stands before and after the next one.
  induction gap with
  | here before after =>
    refine ⟨found before, found after, fun body => ?_⟩
    rw [Gap.fill, List.flatMap_append, List.flatMap_append]
  | inLoop before stamp test inner after ih =>
    obtain ⟨b, a, hinner⟩ := ih
    refine ⟨found before ++ conditionFindings groups test ++ b, a ++ found after, fun body => ?_⟩
    rw [Gap.fill, List.flatMap_append, List.flatMap_cons, statementFindings_loop, hinner]
    simp only [found, List.append_assoc]
  | inWhenTrue before stamp test inner otherwise after ih =>
    obtain ⟨b, a, hinner⟩ := ih
    refine ⟨found before ++ conditionFindings groups test ++ b,
      a ++ found (otherwise.getD []) ++ found after, fun body => ?_⟩
    rw [Gap.fill, List.flatMap_append, List.flatMap_cons, statementFindings_conditional,
      List.flatMap_append, hinner]
    simp only [found, List.append_assoc]
  | inOtherwise before stamp test whenTrue inner after ih =>
    obtain ⟨b, a, hinner⟩ := ih
    refine ⟨found before ++ conditionFindings groups test ++ found whenTrue ++ b, a ++ found after,
      fun body => ?_⟩
    rw [Gap.fill, List.flatMap_append, List.flatMap_cons, statementFindings_conditional,
      Option.getD_some, List.flatMap_append, hinner]
    simp only [found, List.append_assoc]

end

theorem check_eq_flatMap (p : Program) :
    check p = groupFindings p.declarations ++ p.statements.flatMap (statementFindings p.declarations) :=
  findings_statements p.statements _

/-! ## The scope of the names -/

theorem exit_table_declare (token : Token) (type : ValueType) (seq : SeqNumber) (s : State) :
    (s.declare token type seq).table.exit = s.table.exit := by
  unfold State.declare
  split
  · split
    · next hadded => exact SymbolTable.exit_of_added hadded
    · rfl
    · rfl
  · rfl

theorem exit_table_declaration (d : Declaration) (s : State) :
    (declaration d s).table.exit = s.table.exit := by
  unfold declaration
  induction d.idents generalizing s with
  | nil => rfl
  | cons i idents ih => exact (ih _).trans (exit_table_declare ..)

theorem exit_table_declarations (groups : List Declaration) (s : State) :
    (declarations groups s).table.exit = s.table.exit := by
  induction groups generalizing s with
  | nil => rfl
  | cons d groups ih => exact (ih _).trans (exit_table_declaration d s)

theorem table_closeScope (groups : List Declaration) (body : List Statement) (s : State) :
    (statements body (declarations groups s.openScope)).closeScope.table = s.table := by
  calc (statements body (declarations groups s.openScope)).table.exit
      = (declarations groups s.openScope).table.exit := by rw [table_statements]
    _ = s.openScope.table.exit := exit_table_declarations ..
    _ = s.table := s.table.exit_enter

/-! ## Edits -/

/-- How what is found in a program follows its statements. -/
structure FollowsEdits (p : Program) : Prop where
  by_statement : ∀ body, check { p with statements := body } =
    groupFindings p.declarations ++ body.flatMap (statementFindings p.declarations)
  /-- Whatever statements fill a gap, what they find is found there, and the rest stays. -/
  filled : ∀ gap : Gap, ∃ before after, ∀ body, check { p with statements := gap.fill body } =
    before ++ body.flatMap (statementFindings p.declarations) ++ after
  /-- Statements that are exchanged, repeated or left out. -/
  rearranged : ∀ (gap : Gap) (body : List Statement), ∃ before after, ∀ picked : List (Fin body.length),
    check { p with statements := gap.fill (picked.map body.get) } =
      before ++ picked.flatMap (fun k => statementFindings p.declarations (body.get k)) ++ after
  /-- A loop gives way to its body. -/
  loop_unwrapped : ∀ (gap : Gap) (stamp : Stamp) (test : Condition) (body : List Statement), ∃ before after,
    check { p with statements := gap.fill [.loop stamp test body] } =
        before ++ conditionFindings p.declarations test ++ after ∧
      check { p with statements := gap.fill body } = before ++ after
  /-- A conditional gives way to its bodies. -/
  conditional_unwrapped : ∀ (gap : Gap) (stamp : Stamp) (test : Condition) (whenTrue : List Statement)
    (otherwise : Option (List Statement)), ∃ before after,
    check { p with statements := gap.fill [.conditional stamp test whenTrue otherwise] } =
        before ++ conditionFindings p.declarations test ++ after ∧
      check { p with statements := gap.fill (whenTrue ++ otherwise.getD []) } = before ++ after
  /-- From any state the open scopes are left as they were. -/
  scopes_restored : ∀ s : State,
    (statements p.statements (declarations p.declarations s.openScope)).closeScope.table = s.table

theorem exists_check_around (p : Program) (gap : Gap) : ∃ before after, ∀ body,
    check { p with statements := gap.fill body } =
      before ++ body.flatMap (statementFindings p.declarations) ++ after := by
  obtain ⟨before, after, haround⟩ := exists_findings_around p.declarations gap
  refine ⟨groupFindings p.declarations ++ before, after, fun body => ?_⟩
  rw [check_eq_flatMap, haround]
  simp only [List.append_assoc]

theorem findings_follow_edits (p : Program) : FollowsEdits p where
  by_statement _ := check_eq_flatMap _
  filled := exists_check_around p
  rearranged gap body := by
    -- What is found before the gap and behind it does not depend on what fills it.
    obtain ⟨before, after, haround⟩ := exists_check_around p gap
    exact ⟨before, after, fun picked => by rw [haround, List.flatMap_map]⟩
  loop_unwrapped gap stamp test body := by
    obtain ⟨before, after, haround⟩ := exists_check_around p gap
    refine ⟨before, body.flatMap (statementFindings p.declarations) ++ after, ?_, ?_⟩
    · rw [haround, List.flatMap_singleton, statementFindings_loop]
      simp only [List.append_assoc]
    · rw [haround, List.append_assoc]
  conditional_unwrapped gap stamp test whenTrue otherwise := by
    obtain ⟨before, after, haround⟩ := exists_check_around p gap
    refine ⟨before,
      (whenTrue ++ otherwise.getD []).flatMap (statementFindings p.declarations) ++ after, ?_, ?_⟩
    · rw [haround, List.flatMap_singleton, statementFindings_conditional]
      simp only [List.append_assoc]
    · rw [haround, List.append_assoc]
  scopes_restored := table_closeScope p.declarations p.statements

end Typing

end PalChecker
