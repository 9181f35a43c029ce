import PalChecker.Proofs.EndOfFile
import PalChecker.Proofs.Syntax.HeldTokens
import PalChecker.Proofs.Typing.Comparisons

/-!
# What the tree holds was read

Each token in the tree was consumed for it, once and in order, whatever was dropped in between. So what is
wrong with the names and types of a program is blamed on tokens that were read, and the only types that
conflict are those of numbers.
-/

namespace PalChecker

namespace Parser

/-! ## Held of what was consumed -/

namespace State

/-- Between `s` and `t` the tokens `held` were consumed in this order, and perhaps others. -/
def Takes (s : State) (held : List Token) (t : State) : Prop :=
  ∃ more, t.taken = s.taken ++ more ∧ held.Sublist more

namespace Takes

variable {s t u : State} {a b : List Token}

theorem of_same (h : t.taken = s.taken) : s.Takes [] t := ⟨[], h.trans (List.append_nil _).symm, .slnil⟩

theorem refl (s : State) : s.Takes [] s := of_same rfl

theorem trans (ha : s.Takes a t) (hb : t.Takes b u) : s.Takes (a ++ b) u := by
  obtain ⟨first, hfirst, hafirst⟩ := ha
  obtain ⟨rest, hrest, hbrest⟩ := hb
  refine ⟨first ++ rest, ?_, hafirst.append hbrest⟩
  rw [hrest, hfirst, List.append_assoc]

theorem then_same (h : s.Takes a t) (hsame : u.taken = t.taken) : s.Takes a u := by
  have := h.trans (of_same hsame)
  rwa [List.append_nil] at this

theorem mono (h : s.Takes b t) (hab : a.Sublist b) : s.Takes a t := by
  obtain ⟨more, hmore, hsub⟩ := h
  exact ⟨more, hmore, hab.trans hsub⟩

theorem tick (h : s.Takes a t) : s.Takes a t.tick := h

theorem keep (h : s.bump.Takes a t) : s.Takes (s.current :: a) t := by
  have hbump : s.Takes [s.current] s.bump := ⟨[s.current], s.taken_bump, .refl _⟩
  exact hbump.trans h

theorem pass (h : s.bump.Takes a t) : s.Takes a t := h.keep.mono (List.sublist_cons_self _ _)

theorem fail (h : s.Takes a t) (n : Nonterminal) : s.Takes a (t.fail n) := h.then_same (t.taken_fail n)

theorem discard (h : s.Takes a t) : s.Takes a t.discard := h.then_same t.taken_discard

theorem synchronize (h : s.Takes a t) (n : Nonterminal) (extra : List TokenKind) :
    s.Takes a (t.synchronize n extra) := h.then_same (t.taken_synchronize n extra)

theorem recovered (h : s.Takes a t) (n : Nonterminal) (kinds : List TokenKind) :
    s.Takes a (t.recovered n kinds) := (h.fail n).synchronize n kinds

theorem expectAny (kinds : List TokenKind) (n : Nonterminal) (s : State) :
    s.Takes (s.expectAny kinds n).value.toList (s.expectAny kinds n).state := by
  have hrecovered := (refl s).recovered n kinds
  refine expectAny_rule (P := fun value t => s.Takes value.toList t) n ?_ ?_ fun _ => hrecovered
  · exact fun _ => (refl s.bump).keep
  · exact fun _ => hrecovered.trans (refl _).keep

theorem passAny (h : s.Takes a t) (kinds : List TokenKind) (n : Nonterminal) :
    s.Takes a (t.expectAny kinds n).state :=
  (h.trans (expectAny kinds n t)).mono (List.sublist_append_left _ _)

theorem closed (h : s.Takes a t) (kind : TokenKind) (n : Nonterminal) :
    s.Takes a (t.expect kind n).state := h.passAny [kind] n

end Takes

end State

/-! ## Expressions -/

/-- What is read is held from the tokens consumed meanwhile. -/
def TakesPart : Reading Expr := fun s e t => s.Takes e.tokens t

/-- Extending an expression adds what is consumed meanwhile. -/
def TakesMore (left : Expr) : Reading Expr := fun s e t =>
  ∃ added, e.tokens = left.tokens ++ added ∧ s.Takes added t

theorem TakesPart.extend {s t u : State} {first e : Expr} (hfirst : TakesPart s first t)
    (he : TakesMore first t e u) : TakesPart s e u := by
  obtain ⟨added, hadded, htakes⟩ := he
  unfold TakesPart
  rw [hadded]
  exact hfirst.trans htakes

theorem TakesMore.refl (left : Expr) (s : State) : TakesMore left s left s :=
  ⟨[], (List.append_nil _).symm, .refl s⟩

theorem TakesMore.binary {s t u : State} {left right e : Expr} {op : BinaryOp} {stamp : Stamp}
    (hright : TakesPart s.bump right t) (he : TakesMore (.binary stamp left op right) t.tick e u) :
    TakesMore left s e u := by
  obtain ⟨added, hadded, htakes⟩ := he
  refine ⟨right.tokens ++ added, ?_, hright.pass.tick.trans htakes⟩
  rw [hadded, Expr.tokens, List.append_assoc]

theorem taking_expression_rules :
    ExpressionRules TakesPart TakesPart TakesPart TakesPart TakesMore TakesMore where
  sum first rest := first.extend rest
  sums_stop _ := .refl _ _
  sums_step _ right rest := .binary right rest
  product first rest := first.extend rest
  products_stop _ := .refl _ _
  products_step _ right rest := .binary right rest
  signed _ operand := operand.pass.tick
  unsigned _ operand := operand
  value {s} _ := (State.Takes.refl s.bump).keep.tick
  group _ inner := (inner.pass.closed _ _).tick
  retry {s _ _} _ _ factor := ((State.Takes.refl s).recovered .factor []).trans factor
  error {s} _ _ := ((State.Takes.refl s).recovered .factor []).tick

theorem takes_expression (s : State) : TakesPart.Of s (expression s).result :=
  taking_expression_rules.run.1 s

/-! ## Names, values and statements -/

def TakesNames : Reading (List Ident) := fun s idents t => s.Takes (idents.map Ident.token) t

theorem TakesNames.append {s t u : State} {a b : List Ident} (ha : TakesNames s a t) (hb : TakesNames t b u) :
    TakesNames s (a ++ b) u := by
  unfold TakesNames
  rw [List.map_append]
  exact ha.trans hb

theorem taking_part_rules :
    PartRules TakesPart (fun s c t => s.Takes c.tokens t) (fun s found t => TakesNames s found.toList t)
      TakesNames TakesNames (fun s values t => s.Takes (values.flatMap Expr.tokens) t) where
  test left right := ((left.passAny _ _).trans right).tick
  name := by
    intro s token name hname
    have htakes := State.Takes.expectAny [.identifier] .identList s
    rw [show (s.expectAny [.identifier] .identList).value = some token from hname] at htakes
    exact htakes
  no_name {s} _ := (State.Takes.refl s).closed _ _
  names_stop {s} _ := .refl s
  names_step _ first rest := TakesNames.append first.pass rest
  names first rest := TakesNames.append first rest
  values_stop {s} _ := .refl s
  values_step _ first rest := first.pass.trans rest

theorem taking_statement_rules :
    StatementRules TakesPart (fun s c t => s.Takes c.tokens t) TakesNames
      (fun s values t => s.Takes (values.flatMap Expr.tokens) t) (fun s st t => s.Takes st.tokens t)
      fun _ s body t => s.Takes (Statement.allTokens body) t where
  assignment {s _ _} _ _ value := (((State.Takes.refl s.bump).tick.closed _ _).trans value).keep.tick
  target {s} _ _ := ((State.Takes.refl s.bump).tick.closed _ _).keep.tick.tick
  loop _ test body := (((test.closed _ _).trans body).closed _ _).pass.tick
  conditional _ test whenTrue _ := (((test.closed _ _).trans whenTrue).closed _ _).pass.tick
  alternative _ test whenTrue _ otherwise :=
    ((((test.closed _ _).trans whenTrue).trans otherwise.pass).closed _ _).pass.tick
  input _ targets := targets.pass.tick
  output _ first rest := (first.trans rest).pass.tick
  stop {_ s} _ := .refl s
  step _ _ first rest := first.trans rest
  skip {_ s _ _} _ _ rest :=
    (((State.Takes.refl s).fail .statement).discard.synchronize .statement []).trans rest

theorem takes_statements (stops : List TokenKind) (s : State) :
    s.Takes (Statement.allTokens (statements stops s).value) (statements stops s).state :=
  taking_statement_rules.run takes_expression (taking_part_rules.run_test takes_expression)
    taking_part_rules.run_names (taking_part_rules.run_moreValues takes_expression) stops s

/-! ## Declarations and programs -/

theorem takes_untyped (s : State) : s.Takes [] s.untyped := by
  have hfail := (State.Takes.refl s).fail .type
  exact (State.dropName_rule (P := s.Takes []) hfail fun _ => hfail.discard).synchronize .type []

theorem taking_declaration_rules :
    DeclarationRules TakesNames (fun s _ t => s.Takes [] t) (fun s d t => s.Takes d.tokens t)
      (fun s groups t => s.Takes (groups.flatMap Declaration.tokens) t)
      fun s groups t => s.Takes (groups.flatMap Declaration.tokens) t where
  real {s} _ := (State.Takes.refl s.bump).pass
  integer {s} _ := (State.Takes.refl s.bump).pass
  no_type {s} _ _ := takes_untyped s
  group names type := ((names.closed _ _).trans type).tick.mono (List.sublist_append_left _ _)
  stop {s} _ := .refl s
  step _ first rest := first.trans rest
  groups first rest := first.trans rest

theorem State.Takes.filled {s t : State} {a : List Token} (h : s.Takes a t) (body : List Statement) :
    s.Takes a (t.filled body) := filled_rule (P := s.Takes a) body h (h.fail .statement)

theorem State.Takes.ended {s t : State} {a : List Token} (h : s.Takes a t) : s.Takes a t.ended :=
  ended_rule (P := s.Takes a) h (h.fail .program)

theorem takes_parse (tokens : List Token) :
    (State.ofTokens tokens).Takes (parse tokens).program.tokens (parse tokens).final := by
  refine parse_rule (fun s groups t => s.Takes (groups.flatMap Declaration.tokens) t)
    (fun s body t => s.Takes (Statement.allTokens body) t) (fun s p t => s.Takes p.tokens t)
    (taking_declaration_rules.run taking_part_rules.run_names) (takes_statements _) ?_ tokens
  intro s t u groups body name hgroups hbody
  have hname : s.Takes name.value.toList name.state :=
    ((State.Takes.refl s).closed (.keyword .program) .program).trans (.expectAny [.identifier] .program _)
  have hinner := (((hname.closed (.keyword .withDecls) .program).trans hgroups).closed (.keyword .inBody)
    .program).trans hbody
  exact ((hinner.filled body).closed (.keyword .endProgram) .program).ended

theorem taken_sublist (tokens : List Token) : (parse tokens).final.taken.Sublist (Token.beforeEnd tokens) :=
  (List.filter_sublist.map Prod.fst).trans (passed_prefix_beforeEnd tokens).sublist

/-- The tokens that a tree holds are among those read, once each and in order. -/
theorem tokens_sublist_beforeEnd (tokens : List Token) :
    (parse tokens).program.tokens.Sublist (Token.beforeEnd tokens) := by
  obtain ⟨more, hmore, hsub⟩ := takes_parse tokens
  have htaken : (parse tokens).final.taken = more := hmore
  exact hsub.trans (htaken ▸ taken_sublist tokens)

/-! ## The kinds of the tokens -/

theorem kind_of_name {tokens : List Token} {t : Token} (h : (parse tokens).program.name = some t) :
    t.kind = .identifier := List.mem_singleton.mp (State.expectAny_of_some h).1

end Parser

section

variable {tokens : List Token} {n : Node}

theorem isName_of_mem_nodes {checked : Bool} {i : Ident}
    (h : .ident checked i ∈ (Parser.parse tokens).program.nodes) : i.IsName := by
  obtain ⟨u, hcompletes, -⟩ := Parser.exists_completed_of_mem h
  exact hcompletes.1

theorem kind_of_mem_nodes {checked : Bool} {stamp : Stamp} {token : Token}
    (h : .part checked (.value stamp token) ∈ (Parser.parse tokens).program.nodes) :
    token.kind ∈ TokenKind.value := by
  obtain ⟨u, hcompletes, -⟩ := Parser.exists_completed_of_mem h
  exact hcompletes.1

/-! ## The tokens that are blamed -/

theorem Side.exists_token {side : Side} {token : Token} (h : side.token? = some token) :
    (∃ i, .ident true i ∈ side.nodes ∧ i.token = token) ∨
      ∃ stamp, .part true (.value stamp token) ∈ side.nodes := by
  cases side with
  | target i => exact .inl ⟨i, List.mem_cons_self, Option.some.inj h⟩
  | operand e =>
    rcases e.exists_leftmost SymbolTable.empty true with ⟨stamp, found, hn, hfound, -⟩ | ⟨_, -, hnone⟩
    · obtain rfl := Option.some.inj (hfound.symm.trans h)
      exact .inr ⟨stamp, hn⟩
    · cases hnone.symm.trans h

theorem token_mem_of_node {token : Token} (hn : n ∈ (Parser.parse tokens).program.nodes)
    (htoken : n.token? = some token) : token ∈ (Parser.parse tokens).program.tokens := by
  rw [Program.tokens_eq]
  exact List.mem_append_right _ (List.mem_filterMap.mpr ⟨n, hn, htoken⟩)

theorem token_of_side {left right side : Side} {token : Token}
    (hn : n ∈ (Parser.parse tokens).program.nodes) (hsides : n.sides? = some (left, right))
    (hside : side ∈ [left, right]) (htoken : side.token? = some token) :
    token ∈ (Parser.parse tokens).program.tokens ∧ token.kind ∈ TokenKind.value := by
  have hnodes {m : Node} (hm : m ∈ side.nodes) : m ∈ (Parser.parse tokens).program.nodes :=
    List.mem_append_right _ (mem_allNodes_of_mem_side hn hsides hside hm)
  rcases side.exists_token htoken with ⟨i, hi, rfl⟩ | ⟨stamp, hvalue⟩
  · exact ⟨token_mem_of_node (hnodes hi) rfl, (isName_of_mem_nodes (hnodes hi)).mem_value⟩
  · exact ⟨token_mem_of_node (hnodes hvalue) rfl, kind_of_mem_nodes (hnodes hvalue)⟩

theorem Node.Triggers.token_mem {d : Diagnostic} (h : n.Triggers d)
    (hn : n ∈ (Parser.parse tokens).program.nodes) :
    d.token ∈ (Parser.parse tokens).program.tokens := by
  unfold Node.Triggers at h
  split at h
  · exact token_mem_of_node hn (congrArg some h)
  · exact token_mem_of_node hn (congrArg some h)
  · exact (token_of_side hn rfl (List.mem_cons_of_mem _ List.mem_cons_self) h).1
  · exact (token_of_side hn rfl (List.mem_cons_of_mem _ List.mem_cons_self) h).1
  · exact (token_of_side hn rfl (List.mem_cons_of_mem _ List.mem_cons_self) h).1
  · obtain ⟨i, hi, holder, rfl⟩ := h
    exact token_mem_of_node (Program.ident_mem_nodes hn hi) rfl
  · exact h.elim

theorem token_mem_of_check {f : Finding} (hf : f ∈ Typing.check (Parser.parse tokens).program) :
    f.diagnostic.token ∈ (Parser.parse tokens).program.tokens := by
  rw [Typing.check_eq_walk] at hf
  obtain ⟨n, hn, -, htriggers⟩ := exists_node_of_mem_walk hf
  exact htriggers.token_mem hn

/-- A diagnostic blames a token of the stream. -/
theorem Analysis.token_mem_stream {d : Diagnostic} (h : d ∈ diagnostics tokens) :
    d.token ∈ (Cursor.ofTokens tokens).stream := by
  rw [diagnostics_eq_map_findings] at h
  obtain ⟨f, hf, rfl⟩ := List.mem_map.mp h
  rcases mem_findings.mp hf with herror | hcheck
  · have hlocates := Parser.locatesErrors_parse tokens
    rw [← hlocates.errors] at herror
    obtain ⟨e, he, rfl⟩ := List.mem_map.mp herror
    exact List.mem_of_getElem? (hlocates.blamed e he)
  · have hread := (Parser.tokens_sublist_beforeEnd tokens).mem (token_mem_of_check hcheck)
    obtain ⟨x, rest, -, hstart⟩ := Cursor.exists_endOfFile_ofTokens tokens
    have hahead : (Parser.State.ofTokens tokens).upcoming = Token.beforeEnd tokens ++ x :: rest := hstart
    rw [← Parser.State.upcoming_ofTokens, hahead]
    exact List.mem_append_left _ hread

/-! ## The types that conflict -/

/-- The types that a name or a value of a program can have. -/
def ValueType.possible : List ValueType := [integer, real, undefined]

theorem Program.typeOfName_possible (p : Program) (name : String) :
    p.typeOfName name ∈ ValueType.possible := by
  unfold typeOfName
  cases Declarator.first? name p.declarators with
  | none => decide
  | some x =>
    change ValueType.ofDeclared x.type ∈ _
    rcases x.type with _ | _ | _ <;> decide

theorem Program.typeOfValue_possible (p : Program) {token : Token} (h : token.kind ∈ TokenKind.value) :
    p.typeOfValue token ∈ ValueType.possible := by
  unfold typeOfValue
  split
  · exact p.typeOfName_possible token.value
  · rename_i hname
    simp only [TokenKind.value, List.mem_cons, List.not_mem_nil, or_false] at h
    rcases h with h | h | h
    · exact absurd h hname
    · rw [h]
      decide
    · rw [h]
      decide

theorem typeOf_side_possible {left right side : Side} (hn : n ∈ (Parser.parse tokens).program.nodes)
    (hsides : n.sides? = some (left, right)) (hside : side ∈ [left, right]) :
    (Parser.parse tokens).program.typeOf side ∈ ValueType.possible := by
  cases side with
  | target i => exact Program.typeOfName_possible _ _
  | operand e =>
    change e.representative?.elim ValueType.undefined _ ∈ _
    cases htoken : e.representative? with
    | none => exact List.mem_cons_of_mem _ (List.mem_cons_of_mem _ List.mem_cons_self)
    | some token => exact Program.typeOfValue_possible _ (token_of_side hn hsides hside htoken).2

theorem ValueType.Conflicts.numbers {a b : ValueType} (h : a.Conflicts b) (ha : a ∈ possible)
    (hb : b ∈ possible) : a = integer ∧ b = real ∨ a = real ∧ b = integer := by
  revert h ha hb
  cases a <;> cases b <;> decide

theorem Expr.types_of_mem_conflicts {table : SymbolTable} {known actual expected : ValueType} {e : Expr}
    {token : Token} (h : .typeConflict token actual expected ∈ e.conflicts table known) :
    actual = e.typeIn table ∧ expected = known ∧ known.Conflicts (e.typeIn table) := by
  unfold conflicts at h
  split at h
  · cases h
  · split at h
    · rename_i hconflicts
      obtain ⟨-, hactual, hexpected⟩ := Diagnostic.typeConflict.inj (List.mem_singleton.mp h)
      exact ⟨hactual, hexpected, hconflicts⟩
    · cases h

/-- A conflict is found where two sides are compared, and names their types. -/
theorem exists_sides_of_conflict {p : Program} {seq : SeqNumber} {token : Token} {actual expected : ValueType}
    (h : ⟨seq, .typeConflict token actual expected⟩ ∈ Typing.check p) :
    ∃ n ∈ p.nodes, ∃ first second, n.sides? = some (first, .operand second) ∧
      actual = p.typeOf (.operand second) ∧ expected = p.typeOf first ∧ expected.Conflicts actual := by
  -- Declarations cause no conflicts, so one was found at a node of a statement.
  have hfilter := Typing.filter_check_of_use p (fun fault => fault = .conflict) rfl
  have hmem := hfilter ▸ List.mem_filter.mpr ⟨h, rfl⟩
  obtain ⟨n, hn, hfound⟩ := List.mem_flatMap.mp (List.mem_filter.mp hmem).1
  obtain ⟨d, hd, hsame⟩ := List.mem_map.mp hfound
  obtain rfl : d = .typeConflict token actual expected := congrArg Finding.diagnostic hsame
  have hgroup : ∀ d, n ≠ .group d := by
    rintro d rfl
    exact Statement.group_not_mem_allNodes d p.statements hn
  rcases n.diagnostics_cases p.scope hgroup with
    ⟨i, -, -, -, hdiagnostics⟩ | ⟨first, second, -, hsides, hdiagnostics⟩ | ⟨-, -, hdiagnostics⟩
  · rw [hdiagnostics] at hd
    cases mem_undeclared hd
  · rw [hdiagnostics] at hd
    obtain ⟨rfl, rfl, hconflicts⟩ := Expr.types_of_mem_conflicts hd
    refine ⟨n, List.mem_append_right _ hn, first, second, hsides, ?_, p.typeIn_scope first, hconflicts⟩
    rw [← Side.typeIn_operand, p.typeIn_scope]
  · rw [hdiagnostics] at hd
    cases hd

end

/-- The tokens in the tree are tokens of the input before its end, once each and in the order of reading, and
they are names and values by their kinds. What is wrong with names and types is blamed on them, and only the
types of numbers conflict. -/
theorem tree_holds_tokens_in_order (tokens : List Token) :
    let p := (Parser.parse tokens).program
    p.tokens.Sublist (Token.beforeEnd tokens) ∧
      ((∀ t, p.name = some t → t.kind = .identifier) ∧
        (∀ checked i, .ident checked i ∈ p.nodes → i.token.kind = .identifier) ∧
        ∀ checked stamp token, .part checked (.value stamp token) ∈ p.nodes →
          token.kind ∈ [.identifier, .integerLiteral, .realLiteral]) ∧
      (∀ d ∈ Analysis.diagnostics tokens, ¬d.IsSyntaxError →
        d.token ∈ p.tokens ∧ d.token ∈ Token.beforeEnd tokens) ∧
      ∀ token actual expected, .typeConflict token actual expected ∈ Analysis.diagnostics tokens →
        actual = .integer ∧ expected = .real ∨ actual = .real ∧ expected = .integer := by
  intro p
  -- What is not a grammar error was found in the tree.
  have hcheck {d : Diagnostic} (hd : d ∈ Analysis.diagnostics tokens) (hsemantic : ¬d.IsSyntaxError) :
      ∃ seq, ⟨seq, d⟩ ∈ Typing.check p := by
    rw [Analysis.diagnostics_eq_map_findings] at hd
    obtain ⟨f, hf, rfl⟩ := List.mem_map.mp hd
    rcases Analysis.mem_findings.mp hf with herror | hf
    · exact absurd (isSyntaxError_of_mem_errors herror) hsemantic
    · exact ⟨f.seq, hf⟩
  have hread : p.tokens.Sublist (Token.beforeEnd tokens) := Parser.tokens_sublist_beforeEnd tokens
  refine ⟨hread, ⟨fun _ => Parser.kind_of_name, fun _ _ => isName_of_mem_nodes,
    fun _ _ _ => kind_of_mem_nodes⟩, ?_, ?_⟩
  · intro d hd hsemantic
    obtain ⟨seq, hf⟩ := hcheck hd hsemantic
    have hheld : d.token ∈ p.tokens := token_mem_of_check hf
    exact ⟨hheld, hread.mem hheld⟩
  · intro token actual expected hd
    obtain ⟨seq, hf⟩ := hcheck hd id
    obtain ⟨n, hn, first, second, hsides, rfl, rfl, hconflicts⟩ := exists_sides_of_conflict hf
    have hfirst := typeOf_side_possible hn hsides List.mem_cons_self
    have hsecond := typeOf_side_possible hn hsides (List.mem_cons_of_mem _ List.mem_cons_self)
    refine (hconflicts.numbers hfirst hsecond).symm.imp ?_ ?_
    · exact fun h => ⟨h.2, h.1⟩
    · exact fun h => ⟨h.2, h.1⟩

/-- A star that begins no operand is skipped, and the literal behind it is not of the type of the target. -/
theorem tree_holds_tokens_in_order_of_skipped_star :
    let tokens : List Token :=
      [.fixed (.keyword .program), ⟨.identifier, "p", .start⟩, .fixed (.keyword .withDecls),
        ⟨.identifier, "a", .start⟩, .fixed (.keyword .as), .fixed (.keyword .real), .fixed (.keyword .inBody),
        ⟨.identifier, "a", .start⟩, .fixed (.punct .equals), .fixed (.punct .star),
        ⟨.integerLiteral, "1", .start⟩, .fixed (.keyword .endProgram)]
    let held := (Parser.parse tokens).program.tokens
    held.map Token.value = ["p", "a", "a", "1"] ∧ held.Sublist (Token.beforeEnd tokens) ∧
      ∃ token actual expected, .typeConflict token actual expected ∈ Analysis.diagnostics tokens ∧
        token ∈ held ∧ (actual = .integer ∧ expected = .real ∨ actual = .real ∧ expected = .integer) := by
  intro tokens held
  have hheld : held.map Token.value = ["p", "a", "a", "1"] := by decide +kernel
  have hchecked : ∃ f ∈ Typing.check (Parser.parse tokens).program,
      f.diagnostic = .typeConflict ⟨.integerLiteral, "1", .start⟩ .integer .real := by
    decide +kernel
  obtain ⟨f, hf, hdiagnostic⟩ := hchecked
  have hconflict : .typeConflict ⟨.integerLiteral, "1", .start⟩ .integer .real ∈
      Analysis.diagnostics tokens :=
    List.mem_map.mpr ⟨f, Analysis.mem_findings.mpr (.inr hf), hdiagnostic⟩
  obtain ⟨hread, -, hblamed, hnumbers⟩ := tree_holds_tokens_in_order tokens
  exact ⟨hheld, hread, _, _, _, hconflict, (hblamed _ hconflict id).1, hnumbers _ _ _ hconflict⟩

end PalChecker
