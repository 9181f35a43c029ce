import PalChecker.Proofs.Parser.ExpressionRules

/-!
# What reading statements and declarations does

The equations of the functions that read names, statements and blocks, and one rule for each branch. A
statement is described from the state before its first token is consumed.
-/

namespace PalChecker.Parser

/-! ## Names and values, by equations -/

theorem identifier_of_some {s : State} {token : Token}
    (h : (s.expect .identifier .identList).value = some token) :
    (identifier s).result =
      (some ⟨(s.expect .identifier .identList).state.stamp token.location, token⟩,
        (s.expect .identifier .identList).state.tick) := by
  unfold identifier Parsed.result
  simp only [h]

theorem identifier_of_none {s : State} (h : (s.expect .identifier .identList).value = none) :
    (identifier s).result = (none, (s.expect .identifier .identList).state) := by
  unfold identifier Parsed.result
  simp only [h]

theorem moreIdentifiers_of_ne_comma {s : State} (h : s.kind ≠ .punct .comma) :
    (moreIdentifiers s).result = ([], s) := by
  rw [moreIdentifiers, dif_neg h]
  rfl

theorem moreIdentifiers_of_comma {s : State} (h : s.kind = .punct .comma) :
    (moreIdentifiers s).result =
      ((identifier s.bump).value.toList ++ (moreIdentifiers (identifier s.bump).state).value,
        (moreIdentifiers (identifier s.bump).state).state) := by
  rw [moreIdentifiers, dif_pos h]
  rfl

theorem identifiers_result (s : State) :
    (identifiers s).result =
      ((identifier s).value.toList ++ (moreIdentifiers (identifier s).state).value,
        (moreIdentifiers (identifier s).state).state) := rfl

theorem moreValues_of_ne_comma {s : State} (h : s.kind ≠ .punct .comma) :
    (moreValues s).result = ([], s) := by
  rw [moreValues, dif_neg h]
  rfl

theorem moreValues_of_comma {s : State} (h : s.kind = .punct .comma) :
    (moreValues s).result =
      ((expression s.bump).value :: (moreValues (expression s.bump).state).value,
        (moreValues (expression s.bump).state).state) := by
  rw [moreValues, dif_pos h]
  rfl

/-! ## Statements, by equations -/

theorem assignment_of_some (target : Token) {s : State}
    (h : (s.tick.expect (.punct .equals) .assignment).value.isSome) :
    (assignment target s).result =
      let value := expression (s.tick.expect (.punct .equals) .assignment).state
      (.assignment (value.state.stamp target.location) ⟨s.stamp target.location, target⟩ value.value,
        value.state.tick) := by
  unfold assignment Parsed.result
  simp only [h, if_true]

theorem assignment_of_none (target : Token) {s : State}
    (h : (s.tick.expect (.punct .equals) .assignment).value = none) :
    (assignment target s).result =
      let after := (s.tick.expect (.punct .equals) .assignment).state
      (.assignment (after.tick.stamp target.location) ⟨s.stamp target.location, target⟩
          (.error (after.stamp target.location)),
        after.tick.tick) := by
  unfold assignment Parsed.result
  simp only [h, Option.isSome_none, Bool.false_eq_true, if_false]

theorem input_result (start : Location) (s : State) :
    (input start s).result =
      (.input ((identifiers s).state.stamp start) (identifiers s).value,
        (identifiers s).state.tick) := rfl

theorem output_result (start : Location) (s : State) :
    (output start s).result =
      let first := expression s
      let rest := moreValues first.state
      (.output (rest.state.stamp start) (first.value :: rest.value), rest.state.tick) := rfl

theorem loop_result (start : Location) (s : State) :
    (loop start s).result =
      let test := condition s
      let body := statements TokenKind.blockEnd (test.state.expect (.keyword .repeatBody) .loop).state
      let close := (body.state.expect (.keyword .endLoop) .loop).state
      (.loop (close.stamp start) test.value body.value, close.tick) := by
  rw [loop]
  rfl

abbrev State.thenStart (s : State) : State :=
  ((condition s).state.expect (.keyword .thenBranch) .conditional).state

/-- The first block of a conditional whose condition begins at `s`. -/
abbrev State.thenBlock (s : State) := statements TokenKind.blockEnd s.thenStart

theorem conditional_of_else (start : Location) {s : State}
    (h : s.thenBlock.state.kind = .keyword .elseBranch) :
    (conditional start s).result =
      let otherwise := statements TokenKind.blockEnd s.thenBlock.state.bump
      let close := (otherwise.state.expect (.keyword .endIf) .conditional).state
      (.conditional (close.stamp start) (condition s).value s.thenBlock.value (some otherwise.value),
        close.tick) := by
  obtain ⟨hvalue, hstate⟩ := Prod.mk.inj (State.eatAny_of_mem (List.mem_singleton.mpr h))
  rw [conditional]
  unfold Parsed.result
  dsimp only
  rw [if_pos (by rw [hvalue]; rfl)]
  dsimp only
  rw [hstate]

theorem conditional_of_ne_else (start : Location) {s : State}
    (h : s.thenBlock.state.kind ≠ .keyword .elseBranch) :
    (conditional start s).result =
      let close := (s.thenBlock.state.expect (.keyword .endIf) .conditional).state
      (.conditional (close.stamp start) (condition s).value s.thenBlock.value none, close.tick) := by
  obtain ⟨hvalue, hstate⟩ := Prod.mk.inj (State.eatAny_of_not_mem (mt List.mem_singleton.mp h))
  rw [conditional]
  unfold Parsed.result
  dsimp only
  rw [if_neg (by rw [hvalue]; exact Bool.false_ne_true)]
  dsimp only
  rw [hstate]

theorem statement_of_identifier (head : Token) (s : State) (h : head.kind = .identifier) :
    (statement head s).result = (assignment head s).result := by
  rw [statement]
  split <;> simp_all

theorem statement_of_until (head : Token) (s : State) (h : head.kind = .keyword .untilCond) :
    (statement head s).result = (loop head.location s).result := by
  rw [statement]
  split <;> simp_all

theorem statement_of_if (head : Token) (s : State) (h : head.kind = .keyword .ifCond) :
    (statement head s).result = (conditional head.location s).result := by
  rw [statement]
  split <;> simp_all

theorem statement_of_input (head : Token) (s : State) (h : head.kind = .keyword .input) :
    (statement head s).result = (input head.location s).result := by
  rw [statement]
  split <;> simp_all

theorem statement_of_output (head : Token) (s : State) (h : head.kind = .keyword .output) :
    (statement head s).result = (output head.location s).result := by
  rw [statement]
  split <;> simp_all

/-! ## Blocks, by equations -/

theorem statements_of_stop {stops : List TokenKind} {s : State}
    (h : s.kind = .endOfFile ∨ s.kind ∈ stops) : (statements stops s).result = ([], s) := by
  rw [statements, dif_pos h]
  rfl

theorem statements_of_start {stops : List TokenKind} {s : State}
    (h : ¬(s.kind = .endOfFile ∨ s.kind ∈ stops)) (hstart : s.kind ∈ TokenKind.statementStart) :
    (statements stops s).result =
      let first := statement s.current s.bump
      let rest := statements stops first.state
      (first.value :: rest.value, rest.state) := by
  rw [statements, dif_neg h, if_pos hstart]
  rfl

theorem statements_of_statementStart {stops : List TokenKind} {s : State}
    (hstops : ∀ k ∈ TokenKind.statementStart, k ∉ stops) (hstart : s.kind ∈ TokenKind.statementStart) :
    (statements stops s).result =
      let first := statement s.current s.bump
      let rest := statements stops first.state
      (first.value :: rest.value, rest.state) :=
  statements_of_start (not_or.mpr ⟨ne_endOfFile_of_statementStart hstart, hstops _ hstart⟩) hstart

theorem statements_value_ne_nil {stops : List TokenKind} {s : State}
    (hstops : ∀ k ∈ TokenKind.statementStart, k ∉ stops) (hs : s.kind ∈ TokenKind.statementStart) :
    (statements stops s).value ≠ [] := by
  rw [(Prod.mk.inj (statements_of_statementStart hstops hs)).1]
  exact List.cons_ne_nil _ _

/-- Where reading resumes after a token that begins no statement. -/
abbrev State.stepped (s : State) : State :=
  (s.fail .statement).discard.synchronize .statement []

theorem statements_of_not_start {stops : List TokenKind} {s : State}
    (h : ¬(s.kind = .endOfFile ∨ s.kind ∈ stops)) (hstart : s.kind ∉ TokenKind.statementStart) :
    (statements stops s).result = (statements stops s.stepped).result := by
  rw [statements, dif_neg h, if_neg hstart]
  rfl

/-! ## Names, values and tests, by rules -/

structure PartRules (Sum : Reading Expr) (Test : Reading Condition) (Name : Reading (Option Ident))
    (MoreNames Names : Reading (List Ident)) (MoreValues : Reading (List Expr)) : Prop where
  test {s t u : State} {left right : Expr} : Sum s left t →
    let op := t.expectAny TokenKind.relationalOperator .booleanExpr
    Sum op.state right u →
      Test s
        { stamp := u.stamp s.location
          left
          op := op.value.bind fun token => RelationalOp.ofKind? token.kind
          right }
        u.tick
  name {s : State} {token : Token} :
    let name := s.expect .identifier .identList
    name.value = some token →
      Name s (some ⟨name.state.stamp token.location, token⟩) name.state.tick
  no_name {s : State} :
    let name := s.expect .identifier .identList
    name.value = none → Name s none name.state
  names_stop {s : State} : s.kind ≠ .punct .comma → MoreNames s [] s
  names_step {s t u : State} {first : Option Ident} {rest : List Ident} : s.kind = .punct .comma →
    Name s.bump first t → MoreNames t rest u → MoreNames s (first.toList ++ rest) u
  names {s t u : State} {first : Option Ident} {rest : List Ident} :
    Name s first t → MoreNames t rest u → Names s (first.toList ++ rest) u
  values_stop {s : State} : s.kind ≠ .punct .comma → MoreValues s [] s
  values_step {s t u : State} {first : Expr} {rest : List Expr} : s.kind = .punct .comma →
    Sum s.bump first t → MoreValues t rest u → MoreValues s (first :: rest) u

namespace PartRules

variable {Sum : Reading Expr} {Test : Reading Condition} {Name : Reading (Option Ident)}
  {MoreNames Names : Reading (List Ident)} {MoreValues : Reading (List Expr)}

theorem run_test (rules : PartRules Sum Test Name MoreNames Names MoreValues)
    (sum : ∀ s, Sum.Of s (expression s).result) (s : State) : Test.Of s (condition s).result :=
  rules.test (sum s) (sum _)

theorem run_name (rules : PartRules Sum Test Name MoreNames Names MoreValues) (s : State) :
    Name.Of s (identifier s).result := by
  cases h : (s.expect .identifier .identList).value with
  | some token =>
    rw [identifier_of_some h]
    exact rules.name h
  | none =>
    rw [identifier_of_none h]
    exact rules.no_name h

theorem run_moreNames (rules : PartRules Sum Test Name MoreNames Names MoreValues) (s : State) :
    MoreNames.Of s (moreIdentifiers s).result := by
  refine moreIdentifiers.induct (fun s => MoreNames.Of s (moreIdentifiers s).result) ?_ ?_ s
  · intro s h _ first _ rest _
    rw [moreIdentifiers_of_comma h]
    exact rules.names_step h (rules.run_name s.bump) rest
  · intro s h
    rw [moreIdentifiers_of_ne_comma h]
    exact rules.names_stop h

theorem run_names (rules : PartRules Sum Test Name MoreNames Names MoreValues) (s : State) :
    Names.Of s (identifiers s).result := by
  rw [identifiers_result]
  exact rules.names (rules.run_name s) (rules.run_moreNames _)

theorem run_moreValues (rules : PartRules Sum Test Name MoreNames Names MoreValues)
    (sum : ∀ s, Sum.Of s (expression s).result) (s : State) :
    MoreValues.Of s (moreValues s).result := by
  refine moreValues.induct (fun s => MoreValues.Of s (moreValues s).result) ?_ ?_ s
  · intro s h _ first _ rest _
    rw [moreValues_of_comma h]
    exact rules.values_step h (sum s.bump) rest
  · intro s h
    rw [moreValues_of_ne_comma h]
    exact rules.values_stop h

end PartRules

/-! ## Statements, by rules -/

/-- The branches of reading a statement from its first token, and of reading a block. -/
structure StatementRules (Sum : Reading Expr) (Test : Reading Condition)
    (Names : Reading (List Ident)) (MoreValues : Reading (List Expr)) (One : Reading Statement)
    (Block : List TokenKind → Reading (List Statement)) : Prop where
  assignment {s t : State} {value : Expr} : s.kind = .identifier →
    let equals := s.bump.tick.expect (.punct .equals) .assignment
    equals.value.isSome → Sum equals.state value t →
      One s (.assignment (t.stamp s.location) ⟨s.bump.stamp s.location, s.current⟩ value) t.tick
  target {s : State} : s.kind = .identifier →
    let equals := s.bump.tick.expect (.punct .equals) .assignment
    equals.value = none →
      One s
        (.assignment (equals.state.tick.stamp s.location) ⟨s.bump.stamp s.location, s.current⟩
          (.error (equals.state.stamp s.location)))
        equals.state.tick.tick
  loop {s t u : State} {test : Condition} {body : List Statement} : s.kind = .keyword .untilCond →
    Test s.bump test t →
      Block TokenKind.blockEnd (t.expect (.keyword .repeatBody) .loop).state body u →
        let close := (u.expect (.keyword .endLoop) .loop).state
        One s (.loop (close.stamp s.location) test body) close.tick
  conditional {s t u : State} {test : Condition} {whenTrue : List Statement} :
    s.kind = .keyword .ifCond → Test s.bump test t →
      Block TokenKind.blockEnd (t.expect (.keyword .thenBranch) .conditional).state whenTrue u →
        u.kind ≠ .keyword .elseBranch →
          let close := (u.expect (.keyword .endIf) .conditional).state
          One s (.conditional (close.stamp s.location) test whenTrue none) close.tick
  alternative {s t u v : State} {test : Condition} {whenTrue otherwise : List Statement} :
    s.kind = .keyword .ifCond → Test s.bump test t →
      Block TokenKind.blockEnd (t.expect (.keyword .thenBranch) .conditional).state whenTrue u →
        u.kind = .keyword .elseBranch → Block TokenKind.blockEnd u.bump otherwise v →
          let close := (v.expect (.keyword .endIf) .conditional).state
          One s (.conditional (close.stamp s.location) test whenTrue (some otherwise)) close.tick
  input {s t : State} {targets : List Ident} : s.kind = .keyword .input → Names s.bump targets t →
    One s (.input (t.stamp s.location) targets) t.tick
  output {s t u : State} {first : Expr} {rest : List Expr} : s.kind = .keyword .output →
    Sum s.bump first t → MoreValues t rest u →
      One s (.output (u.stamp s.location) (first :: rest)) u.tick
  stop {stops : List TokenKind} {s : State} : s.kind = .endOfFile ∨ s.kind ∈ stops →
    Block stops s [] s
  step {stops : List TokenKind} {s t u : State} {first : Statement} {rest : List Statement} :
    ¬(s.kind = .endOfFile ∨ s.kind ∈ stops) → s.kind ∈ TokenKind.statementStart →
      One s first t → Block stops t rest u → Block stops s (first :: rest) u
  skip {stops : List TokenKind} {s t : State} {rest : List Statement} :
    ¬(s.kind = .endOfFile ∨ s.kind ∈ stops) → s.kind ∉ TokenKind.statementStart →
      Block stops s.stepped rest t → Block stops s rest t

namespace StatementRules

variable {Sum : Reading Expr} {Test : Reading Condition} {Names : Reading (List Ident)}
  {MoreValues : Reading (List Expr)} {One : Reading Statement}
  {Block : List TokenKind → Reading (List Statement)}

theorem of_assignment (rules : StatementRules Sum Test Names MoreValues One Block)
    (sum : ∀ s, Sum.Of s (expression s).result) {s : State} (h : s.kind = .identifier) :
    One.Of s (Parser.assignment s.current s.bump).result := by
  cases hequals : (s.bump.tick.expect (.punct .equals) .assignment).value with
  | some token =>
    have hsome : (s.bump.tick.expect (.punct .equals) .assignment).value.isSome := by
      rw [hequals]
      rfl
    rw [assignment_of_some _ hsome]
    exact rules.assignment h hsome (sum _)
  | none =>
    rw [assignment_of_none _ hequals]
    exact rules.target h hequals

theorem of_output (rules : StatementRules Sum Test Names MoreValues One Block)
    (sum : ∀ s, Sum.Of s (expression s).result)
    (moreValues : ∀ s, MoreValues.Of s (Parser.moreValues s).result) {s : State}
    (h : s.kind = .keyword .output) : One.Of s (Parser.output s.location s.bump).result := by
  rw [output_result]
  exact rules.output h (sum s.bump) (moreValues _)

theorem of_conditional (rules : StatementRules Sum Test Names MoreValues One Block)
    (test : ∀ s, Test.Of s (condition s).result) {s : State} (h : s.kind = .keyword .ifCond)
    (whenTrue : (Block TokenKind.blockEnd).Of s.bump.thenStart s.bump.thenBlock.result)
    (otherwise : (Block TokenKind.blockEnd).Of
      (s.bump.thenBlock.state.eatAny [.keyword .elseBranch]).state
      (statements TokenKind.blockEnd
        (s.bump.thenBlock.state.eatAny [.keyword .elseBranch]).state).result) :
    One.Of s (Parser.conditional s.location s.bump).result := by
  by_cases helse : s.bump.thenBlock.state.kind = .keyword .elseBranch
  · have hmiddle := Prod.mk.inj (State.eatAny_of_mem (List.mem_singleton.mpr helse))
    rw [hmiddle.2] at otherwise
    rw [conditional_of_else _ helse]
    exact rules.alternative h (test s.bump) whenTrue helse otherwise
  · rw [conditional_of_ne_else _ helse]
    exact rules.conditional h (test s.bump) whenTrue helse

/-- What the rules give holds of every block from every state. -/
theorem run (rules : StatementRules Sum Test Names MoreValues One Block)
    (sum : ∀ s, Sum.Of s (expression s).result) (test : ∀ s, Test.Of s (condition s).result)
    (names : ∀ s, Names.Of s (identifiers s).result)
    (moreValues : ∀ s, MoreValues.Of s (Parser.moreValues s).result)
    (stops : List TokenKind) (s : State) : (Block stops).Of s (statements stops s).result := by
  -- A statement is read behind its first token, so the cases speak of the state before it.
  have h := statements.mutual_induct (fun stops s => (Block stops).Of s (statements stops s).result)
    (fun head s => ∀ before : State, before.current = head → before.bump = s →
      before.kind ∈ TokenKind.statementStart → One.Of before (statement head s).result)
    (fun start s => ∀ before : State, before.location = start → before.bump = s →
      before.kind = .keyword .ifCond → One.Of before (Parser.conditional start s).result)
    (fun start s => ∀ before : State, before.location = start → before.bump = s →
      before.kind = .keyword .untilCond → One.Of before (Parser.loop start s).result)
    (fun stops s h => by
      rw [statements_of_stop h]
      exact rules.stop h)
    (fun stops s h _ hstart _ first rest _ => by
      rw [statements_of_start h hstart]
      exact rules.step h hstart (first s rfl rfl hstart) rest)
    (fun stops s h _ hstart _ rest => by
      rw [statements_of_not_start h hstart]
      exact rules.skip h hstart rest)
    (by
      rintro head s h before rfl rfl -
      rw [statement_of_identifier _ _ h]
      exact rules.of_assignment sum h)
    (by
      rintro head s h loop before rfl rfl -
      rw [statement_of_until _ _ h]
      exact loop before rfl rfl h)
    (by
      rintro head s h conditional before rfl rfl -
      rw [statement_of_if _ _ h]
      exact conditional before rfl rfl h)
    (by
      rintro head s h before rfl rfl -
      rw [statement_of_input _ _ h]
      exact rules.input h (names before.bump))
    (by
      rintro head s hname huntil hif hinput before rfl rfl hstart
      have h : before.kind = .keyword .output := by
        simp only [TokenKind.statementStart, List.mem_cons, List.not_mem_nil, or_false] at hstart
        exact (((hstart.resolve_left hname).resolve_left huntil).resolve_left hif).resolve_left hinput
      rw [statement_of_output before.current before.bump h]
      exact rules.of_output sum moreValues h)
    (by
      rintro start s _ _ _ _ _ _ _ whenTrue _ otherwise _ before rfl rfl h
      exact rules.of_conditional test h whenTrue otherwise)
    (by
      rintro start s _ _ _ body _ before rfl rfl h
      rw [loop_result]
      exact rules.loop h (test before.bump) body)
  exact h.1 stops s

end StatementRules

end PalChecker.Parser
