import PalChecker.Proofs.Parser.StatementRules

/-!
# What reading declarations does

The equations of the functions that read declarations, and one rule for each branch.
-/

namespace PalChecker.Parser

/-! ## By equations -/

theorem declType_of_real {s : State} (h : s.kind = .keyword .real) :
    (declType s).result = (some .real, s.bump) := by
  rw [declType, if_pos h]
  rfl

theorem declType_of_integer {s : State} (h : s.kind = .keyword .integer) :
    (declType s).result = (some .integer, s.bump) := by
  rw [declType, if_neg (by rw [h]; decide), if_pos h]
  rfl

/-- Where reading resumes if no type stands at `s`. -/
abbrev State.untyped (s : State) : State := (s.fail .type).dropName.synchronize .type []

theorem errors_dropName (s : State) : s.dropName.errors = s.errors := by
  unfold State.dropName
  split
  · exact s.errors_discard
  · rfl

theorem declType_of_ne {s : State} (hreal : s.kind ≠ .keyword .real)
    (hinteger : s.kind ≠ .keyword .integer) : (declType s).result = (none, s.untyped) := by
  rw [declType, if_neg hreal, if_neg hinteger]
  rfl

theorem declaration_result (s : State) :
    (declaration s).result =
      let names := identifiers s
      let type := declType (names.state.expect (.keyword .as) .varDecls).state
      ({ stamp := type.state.stamp s.location, idents := names.value, type := type.value },
        type.state.tick) := rfl

theorem moreDeclarations_of_not {s : State} (h : ¬AtDeclaration s) :
    (moreDeclarations s).result = ([], s) := by
  rw [moreDeclarations, dif_neg h]
  rfl

theorem moreDeclarations_of {s : State} (h : AtDeclaration s) :
    (moreDeclarations s).result =
      let first := declaration s
      let rest := moreDeclarations first.state
      (first.value :: rest.value, rest.state) := by
  rw [moreDeclarations, dif_pos h]
  rfl

theorem declarations_result (s : State) :
    (declarations s).result =
      let first := declaration s
      let rest := moreDeclarations first.state
      (first.value :: rest.value, rest.state) := rfl

/-! ## By rules -/

/-- The branches of reading the section of declarations. -/
structure DeclarationRules (Names : Reading (List Ident)) (TypeName : Reading (Option DeclType))
    (Group : Reading Declaration) (MoreGroups Groups : Reading (List Declaration)) : Prop where
  real {s : State} : s.kind = .keyword .real → TypeName s (some .real) s.bump
  integer {s : State} : s.kind = .keyword .integer → TypeName s (some .integer) s.bump
  no_type {s : State} : s.kind ≠ .keyword .real → s.kind ≠ .keyword .integer →
    TypeName s none s.untyped
  group {s t u : State} {idents : List Ident} {type : Option DeclType} : Names s idents t →
    TypeName (t.expect (.keyword .as) .varDecls).state type u →
      Group s { stamp := u.stamp s.location, idents, type } u.tick
  stop {s : State} : ¬AtDeclaration s → MoreGroups s [] s
  step {s t u : State} {first : Declaration} {rest : List Declaration} : AtDeclaration s →
    Group s first t → MoreGroups t rest u → MoreGroups s (first :: rest) u
  groups {s t u : State} {first : Declaration} {rest : List Declaration} :
    Group s first t → MoreGroups t rest u → Groups s (first :: rest) u

namespace DeclarationRules

variable {Names : Reading (List Ident)} {TypeName : Reading (Option DeclType)}
  {Group : Reading Declaration} {MoreGroups Groups : Reading (List Declaration)}

theorem run_type (rules : DeclarationRules Names TypeName Group MoreGroups Groups) (s : State) :
    TypeName.Of s (declType s).result := by
  by_cases hreal : s.kind = .keyword .real
  · rw [declType_of_real hreal]
    exact rules.real hreal
  by_cases hinteger : s.kind = .keyword .integer
  · rw [declType_of_integer hinteger]
    exact rules.integer hinteger
  · rw [declType_of_ne hreal hinteger]
    exact rules.no_type hreal hinteger

theorem run_group (rules : DeclarationRules Names TypeName Group MoreGroups Groups)
    (names : ∀ s, Names.Of s (identifiers s).result) (s : State) :
    Group.Of s (declaration s).result := by
  rw [declaration_result]
  exact rules.group (names s) (rules.run_type _)

theorem run_moreGroups (rules : DeclarationRules Names TypeName Group MoreGroups Groups)
    (names : ∀ s, Names.Of s (identifiers s).result) (s : State) :
    MoreGroups.Of s (moreDeclarations s).result := by
  refine moreDeclarations.induct (fun s => MoreGroups.Of s (moreDeclarations s).result) ?_ ?_ s
  · intro s h _ _ rest _
    rw [moreDeclarations_of h]
    exact rules.step h (rules.run_group names s) rest
  · intro s h
    rw [moreDeclarations_of_not h]
    exact rules.stop h

theorem run (rules : DeclarationRules Names TypeName Group MoreGroups Groups)
    (names : ∀ s, Names.Of s (identifiers s).result) (s : State) :
    Groups.Of s (declarations s).result := by
  rw [declarations_result]
  exact rules.groups (rules.run_group names s) (rules.run_moreGroups names _)

end DeclarationRules

/-! ## Programs -/

abbrev State.filled (body : List Statement) (s : State) : State :=
  if body.isEmpty then s.fail .statement else s

abbrev State.ended (s : State) : State := if s.kind = .endOfFile then s else s.fail .program

section

variable {P : State → Prop} {s : State}

theorem State.filled_rule (body : List Statement) (h : P s) (hfail : P (s.fail .statement)) :
    P (s.filled body) := by
  cases body with
  | nil => exact hfail
  | cons first rest => exact h

theorem State.ended_rule (h : P s) (hfail : P (s.fail .program)) : P s.ended := by
  unfold State.ended
  split
  · exact h
  · exact hfail

theorem State.dropName_rule (h : P s) (hdiscard : s.kind = .identifier → P s.discard) : P s.dropName := by
  unfold State.dropName
  split
  case isTrue hkind => exact hdiscard hkind
  case isFalse => exact h

end

/-- What holds of the program read from every state holds of every parse. -/
theorem parse_rule (Groups : Reading (List Declaration)) (Block : Reading (List Statement))
    (Whole : Reading Program) (groups : ∀ s, Groups.Of s (declarations s).result)
    (block : ∀ s, Block.Of s (statements [.keyword .endProgram] s).result)
    (whole : ∀ {s t u : State} {ds : List Declaration} {ss : List Statement},
      let name := (s.expect (.keyword .program) .program).state.expect .identifier .program
      Groups (name.state.expect (.keyword .withDecls) .program).state ds t →
        Block (t.expect (.keyword .inBody) .program).state ss u →
          Whole s
            { name := name.value, declarations := ds, statements := ss, location := s.location }
            ((u.filled ss).expect (.keyword .endProgram) .program).state.ended)
    (tokens : List Token) :
    Whole (.ofTokens tokens) (parse tokens).program (parse tokens).final :=
  whole (groups _) (block _)

end PalChecker.Parser
