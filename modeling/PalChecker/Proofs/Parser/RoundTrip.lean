import PalChecker.Proofs.Parser.CleanRuns
import PalChecker.Proofs.Parser.ExpressionRoundTrip
import PalChecker.Proofs.Syntax.Sentences

/-!
# Reading what a tree spells

From the spelling of a canonical tree the same tree is read again. One token ahead decides every branch
but one: a name may begin a declaration or an assignment.
-/

namespace PalChecker.Parser

/-! ## What ends a part -/

/-- No expression and no list goes on with `k`. -/
structure Ends (k : TokenKind) : Prop where
  additive : BinaryOp.additive? k = none
  multiplicative : BinaryOp.multiplicative? k = none
  ne_comma : k ≠ .punct .comma

theorem Ends.keyword (k : Keyword) : Ends (.keyword k) where
  additive := rfl
  multiplicative := rfl
  ne_comma := by
    intro h
    cases h

theorem Ends.of_statementStart {k : TokenKind} (h : k ∈ TokenKind.statementStart) : Ends k := by
  simp only [TokenKind.statementStart, List.mem_cons, List.not_mem_nil, or_false] at h
  rcases h with rfl | rfl | rfl | rfl | rfl <;> exact ⟨rfl, rfl, by decide⟩

theorem Ends.of_blockEnd {k : TokenKind} (h : k ∈ TokenKind.blockEnd) : Ends k := by
  simp only [TokenKind.blockEnd, List.mem_cons, List.not_mem_nil, or_false] at h
  rcases h with rfl | rfl | rfl | rfl <;> exact .keyword _

/-- What stands behind a statement. -/
def behindStatement : List TokenKind := TokenKind.statementStart ++ TokenKind.blockEnd

theorem ends_of_behindStatement {k : TokenKind} (h : k ∈ behindStatement) : Ends k := by
  rcases List.mem_append.mp h with h | h
  · exact .of_statementStart h
  · exact .of_blockEnd h

/-- It begins with a token that begins a statement. -/
def StartsStatement (w : List Token) : Prop :=
  ∃ y u, w = y :: u ∧ y.kind ∈ TokenKind.statementStart

/-! ## Names, values and tests -/

theorem rereads_identifier {i : Ident} {s : State} {rest : List Token} (hi : i.IsName)
    (h : s.Sees (i.token :: rest)) :
    ∃ found, (identifier s).value = some found ∧ found.unstamped = i.unstamped ∧
      (identifier s).state.Sees rest := by
  obtain ⟨hvalue, hstate⟩ :=
    sees_expectAny [.identifier] .identList h (List.mem_singleton.mpr hi) (by decide)
  obtain ⟨hfound, hafter⟩ := Prod.mk.inj (identifier_of_some hvalue)
  refine ⟨_, hfound, ?_, ?_⟩
  · rw [Ident.unstamped, Ident.unstamped, h.current_eq hi.mem_value]
  · rw [hafter]
    exact hstate.tick

theorem rereads_moreIdentifiers {idents : List Ident} {s : State} {x : Token} {rest : List Token}
    (hnames : ∀ i ∈ idents, i.IsName) (hx : x.kind ≠ .punct .comma)
    (h : s.Sees (afterCommas (idents.map ([·.token])) ++ x :: rest)) :
    Rereads (List.map Ident.unstamped) (moreIdentifiers s).result idents (x :: rest) := by
  induction idents generalizing s with
  | nil =>
    have h : s.Sees (x :: rest) := h
    rw [moreIdentifiers_of_ne_comma (h.kind ▸ hx)]
    exact ⟨rfl, h⟩
  | cons i more ih =>
    obtain ⟨hi, hmore⟩ := List.forall_mem_cons.mp hnames
    simp only [List.map_cons, afterCommas_cons, List.cons_append, List.nil_append] at h
    obtain ⟨found, hfound, hunstamped, hstate⟩ := rereads_identifier hi (h.bump (by decide))
    rw [moreIdentifiers_of_comma h.kind, hfound]
    exact (ih hmore hstate).cons hunstamped

theorem rereads_identifiers {idents : List Ident} {s : State} {x : Token} {rest : List Token}
    (hne : idents ≠ []) (hnames : ∀ i ∈ idents, i.IsName) (hx : x.kind ≠ .punct .comma)
    (h : s.Sees (Ident.spellings idents ++ x :: rest)) :
    Rereads (List.map Ident.unstamped) (identifiers s).result idents (x :: rest) := by
  obtain ⟨i, more, rfl⟩ := List.exists_cons_of_ne_nil hne
  obtain ⟨hi, hmore⟩ := List.forall_mem_cons.mp hnames
  simp only [Ident.spellings, List.map_cons, commaSeparated, List.cons_append, List.nil_append] at h
  obtain ⟨found, hfound, hunstamped, hstate⟩ := rereads_identifier hi h
  rw [identifiers_result, hfound]
  exact (rereads_moreIdentifiers hmore hx hstate).cons hunstamped

theorem afterCommas_append (parts : List (List Token)) (x : Token) (rest : List Token) :
    ∃ y more, afterCommas parts ++ x :: rest = y :: more ∧ (y = x ∨ y.kind = .punct .comma) := by
  cases parts with
  | nil => exact ⟨x, rest, rfl, Or.inl rfl⟩
  | cons part parts =>
    exact ⟨_, _, by rw [afterCommas_cons, List.cons_append], Or.inr rfl⟩

theorem rereads_value {e : Expr} {values : List Expr} {s : State} {x : Token} {rest : List Token}
    (he : e.Canonical) (hx : Ends x.kind)
    (h : s.Sees (e.spelling ++ (afterCommas (values.map Expr.spelling) ++ x :: rest))) :
    Rereads Expr.unstamped (expression s).result e
      (afterCommas (values.map Expr.spelling) ++ x :: rest) := by
  obtain ⟨y, more, hy, hkind⟩ := afterCommas_append (values.map Expr.spelling) x rest
  rw [hy] at h ⊢
  rcases hkind with rfl | hcomma
  · exact rereads_expression he hx.additive hx.multiplicative h
  · exact rereads_expression he (by rw [hcomma]; rfl) (by rw [hcomma]; rfl) h

theorem rereads_moreValues {values : List Expr} {s : State} {x : Token} {rest : List Token}
    (hvalues : ∀ e ∈ values, e.Canonical) (hx : Ends x.kind)
    (h : s.Sees (afterCommas (values.map Expr.spelling) ++ x :: rest)) :
    Rereads (List.map Expr.unstamped) (moreValues s).result values (x :: rest) := by
  induction values generalizing s with
  | nil =>
    have h : s.Sees (x :: rest) := h
    rw [moreValues_of_ne_comma (h.kind ▸ hx.ne_comma)]
    exact ⟨rfl, h⟩
  | cons e more ih =>
    obtain ⟨he, hmore⟩ := List.forall_mem_cons.mp hvalues
    simp only [List.map_cons, afterCommas_cons, List.cons_append, List.append_assoc] at h
    obtain ⟨hvalue, hstate⟩ := rereads_value he hx (h.bump (by decide))
    rw [moreValues_of_comma h.kind]
    exact (ih hmore hstate).cons hvalue

theorem rereads_condition {c : Condition} {s : State} {x : Token} {rest : List Token}
    (hc : c.Canonical) (hx : Ends x.kind) (h : s.Sees (c.spelling ++ x :: rest)) :
    Rereads Condition.unstamped (condition s).result c (x :: rest) := by
  obtain ⟨hleft, hop, hright⟩ := hc
  obtain ⟨op, hop⟩ := Option.isSome_iff_exists.mp hop
  simp only [Condition.spelling, hop, Option.toList_some, List.map_cons, List.map_nil,
    List.append_assoc, List.cons_append, List.nil_append] at h
  have hadditive : BinaryOp.additive? op.kind = none := by cases op <;> rfl
  have hmultiplicative : BinaryOp.multiplicative? op.kind = none := by cases op <;> rfl
  have hmem : op.kind ∈ TokenKind.relationalOperator := by cases op <;> decide
  obtain ⟨hl, ht⟩ := rereads_expression hleft hadditive hmultiplicative h
  obtain ⟨hvalue, hu⟩ := sees_expectAny TokenKind.relationalOperator .booleanExpr ht hmem (by decide)
  obtain ⟨hr, hw⟩ := rereads_expression hright hx.additive hx.multiplicative hu
  rw [condition_result]
  refine ⟨?_, hw.tick⟩
  have hfound : (((expression s).state.expectAny TokenKind.relationalOperator .booleanExpr).value.bind
      fun token => RelationalOp.ofKind? token.kind) = some op :=
    (congrArg (Option.bind · _) hvalue).trans (RelationalOp.ofKind?_eq_some_iff.mpr ht.kind.symm)
  simp only [Condition.unstamped, hfound, hop]
  congr 1

/-! ## Statements -/

def IsStatementReread (st : Statement) : Prop :=
  ∀ {s : State} {x : Token} {rest : List Token}, Ends x.kind → s.Sees (st.spelling ++ x :: rest) →
    Rereads Statement.unstamped (statement s.current s.bump).result st (x :: rest)

theorem exists_cons_of_canonical {st : Statement} (h : st.Canonical) :
    ∃ head tail, st.spelling = head :: tail ∧ head.kind ∈ TokenKind.statementStart := by
  cases h with
  | assignment htarget _ =>
    exact ⟨_, _, rfl, by rw [show _ = TokenKind.identifier from htarget]; decide⟩
  | loop | conditional | alternative | input | output => exact ⟨_, _, rfl, by decide⟩

theorem spellings_append_cons {body : List Statement} (hbody : ∀ st ∈ body, st.Canonical) (x : Token)
    (rest : List Token) :
    ∃ y more, Statement.spellings body ++ x :: rest = y :: more ∧
      (y = x ∨ y.kind ∈ TokenKind.statementStart) := by
  cases body with
  | nil => exact ⟨x, rest, rfl, Or.inl rfl⟩
  | cons first body =>
    obtain ⟨head, tail, hspelling, hhead⟩ :=
      exists_cons_of_canonical (List.forall_mem_cons.mp hbody).1
    refine ⟨head, tail ++ (Statement.spellings body ++ x :: rest), ?_, Or.inr hhead⟩
    rw [Statement.spellings, hspelling, List.append_assoc, List.cons_append]

theorem rereads_block (stops : List TokenKind) {body : List Statement} {s : State} {x : Token}
    {rest : List Token} (hstops : ∀ k ∈ TokenKind.statementStart, k ∉ stops)
    (hbody : ∀ st ∈ body, st.Canonical) (ih : ∀ st ∈ body, IsStatementReread st)
    (hx : Ends x.kind) (hstop : x.kind = .endOfFile ∨ x.kind ∈ stops)
    (h : s.Sees (Statement.spellings body ++ x :: rest)) :
    Rereads Statement.allUnstamped (statements stops s).result body (x :: rest) := by
  induction body generalizing s with
  | nil =>
    have h : s.Sees (x :: rest) := h
    rw [statements_of_stop (h.kind ▸ hstop)]
    exact ⟨rfl, h⟩
  | cons first body ihbody =>
    obtain ⟨hfirst, hmore⟩ := List.forall_mem_cons.mp hbody
    obtain ⟨ihfirst, ihmore⟩ := List.forall_mem_cons.mp ih
    rw [Statement.spellings, List.append_assoc] at h
    have hstart : s.kind ∈ TokenKind.statementStart := by
      obtain ⟨head, tail, hspelling, hhead⟩ := exists_cons_of_canonical hfirst
      rw [hspelling] at h
      exact h.kind ▸ hhead
    -- A statement ends where the next one begins, and the last one at `x`.
    obtain ⟨y, more, hy, hkind⟩ := spellings_append_cons hmore x rest
    have hends : Ends y.kind := by
      rcases hkind with rfl | hkind
      · exact hx
      · exact .of_statementStart hkind
    obtain ⟨hvalue, hstate⟩ := ihfirst hends (hy ▸ h)
    obtain ⟨hvalues, hlast⟩ := ihbody hmore ihmore (hy ▸ hstate)
    rw [statements_of_statementStart hstops hstart]
    exact ⟨List.cons_eq_cons.mpr ⟨hvalue, hvalues⟩, hlast⟩

theorem rereads_guarded {test : Condition} {body : List Statement} {s : State} {k : Keyword}
    {n : Nonterminal} {x : Token} {rest : List Token} (htest : test.Canonical)
    (hbody : ∀ st ∈ body, st.Canonical) (ih : ∀ st ∈ body, IsStatementReread st)
    (hx : x.kind ∈ TokenKind.blockEnd)
    (h : s.Sees (test.spelling ++ .fixed (.keyword k) :: (Statement.spellings body ++ x :: rest))) :
    (condition s).value.unstamped = test.unstamped ∧
      Rereads Statement.allUnstamped
        (statements TokenKind.blockEnd ((condition s).state.expect (.keyword k) n).state).result body
        (x :: rest) := by
  obtain ⟨hread, ht⟩ := rereads_condition htest (.keyword k) h
  obtain ⟨-, hu⟩ := sees_expect n ht trivial
  exact ⟨hread, rereads_block TokenKind.blockEnd (by decide) hbody ih (.of_blockEnd hx) (.inr hx) hu⟩

theorem rereads_statement {st : Statement} (h : st.Canonical) : IsStatementReread st := by
  induction h with
  | assignment htarget hvalue =>
    intro s x rest hx h
    simp only [Statement.spelling, List.cons_append] at h
    have hkind : s.current.kind = .identifier := h.kind.trans htarget
    have hbump := h.bump (htarget ▸ by decide)
    obtain ⟨hequals, ht⟩ := sees_expect .assignment hbump.tick trivial
    obtain ⟨hread, hstate⟩ := rereads_expression hvalue hx.additive hx.multiplicative ht
    rw [statement_of_identifier _ _ hkind, assignment_of_some _ (by rw [hequals]; rfl),
      h.current_eq htarget.mem_value]
    exact ⟨congrArg (Statement.assignment .blank _) hread, hstate.tick⟩
  | loop htest hbody ih =>
    intro s x rest hx h
    simp only [Statement.spelling, List.cons_append, List.append_assoc, List.nil_append] at h
    obtain ⟨hread, hblock, ht⟩ :=
      rereads_guarded (n := .loop) htest hbody ih (by decide) (h.bump (by decide))
    obtain ⟨-, hclose⟩ := sees_expect .loop ht trivial
    rw [statement_of_until _ _ h.current_kind, loop_result]
    refine ⟨?_, hclose.tick⟩
    simp only [Statement.unstamped, Statement.loop.injEq]
    exact ⟨trivial, hread, hblock⟩
  | conditional htest hblock ih =>
    intro s x rest hx h
    simp only [Statement.spelling, List.cons_append, List.append_assoc, List.nil_append] at h
    obtain ⟨hread, hblock, ht⟩ :=
      rereads_guarded (n := .conditional) htest hblock ih (by decide) (h.bump (by decide))
    obtain ⟨-, hclose⟩ := sees_expect .conditional ht trivial
    -- `ENDIF` follows the block, so the conditional takes no second one.
    have helse : s.bump.thenBlock.state.kind ≠ .keyword .elseBranch := by
      rw [show s.bump.thenBlock.state.kind = _ from ht.kind]
      decide
    rw [statement_of_if _ _ h.current_kind, conditional_of_ne_else _ helse]
    refine ⟨?_, hclose.tick⟩
    simp only [Statement.unstamped, Statement.conditional.injEq]
    exact ⟨trivial, hread, hblock, trivial⟩
  | alternative htest hblock hotherwise ih ih' =>
    intro s x rest hx h
    simp only [Statement.spelling, List.cons_append, List.append_assoc, List.nil_append] at h
    obtain ⟨hread, hblock, ht⟩ :=
      rereads_guarded (n := .conditional) htest hblock ih (by decide) (h.bump (by decide))
    obtain ⟨hsecond, hu⟩ :=
      rereads_block TokenKind.blockEnd (by decide) hotherwise ih' (.of_blockEnd (by decide))
        (.inr (by decide)) (ht.bump (by decide))
    obtain ⟨-, hclose⟩ := sees_expect .conditional hu trivial
    rw [statement_of_if _ _ h.current_kind, conditional_of_else _ ht.kind]
    refine ⟨?_, hclose.tick⟩
    simp only [Statement.unstamped, Statement.conditional.injEq, Option.some.injEq]
    exact ⟨trivial, hread, hblock, hsecond⟩
  | input hne hnames =>
    intro s x rest hx h
    rw [Statement.spelling, List.cons_append] at h
    obtain ⟨hread, hstate⟩ := rereads_identifiers hne hnames hx.ne_comma (h.bump (by decide))
    rw [statement_of_input _ _ h.current_kind, input_result]
    exact ⟨congrArg (Statement.input .blank) hread, hstate.tick⟩
  | @output _ values hne hvalues =>
    obtain ⟨e, more, rfl⟩ := List.exists_cons_of_ne_nil hne
    obtain ⟨he, hmore⟩ := List.forall_mem_cons.mp hvalues
    intro s x rest hx h
    simp only [Statement.spelling, List.map_cons, commaSeparated, List.cons_append,
      List.append_assoc] at h
    obtain ⟨hread, ht⟩ := rereads_value he hx (h.bump (by decide))
    obtain ⟨hreads, hstate⟩ := (rereads_moreValues hmore hx ht).cons hread
    rw [statement_of_output _ _ h.current_kind, output_result]
    exact ⟨congrArg (Statement.output .blank) hreads, hstate.tick⟩

/-! ## Declarations -/

theorem rereads_declType {type : DeclType} {s : State} {rest : List Token}
    (h : s.Sees (.fixed type.kind :: rest)) :
    (declType s).value = some type ∧ (declType s).state.Sees rest := by
  have hresult : (declType s).result = (some type, s.bump) := by
    cases type with
    | integer => exact declType_of_integer h.kind
    | real => exact declType_of_real h.kind
  obtain ⟨hvalue, hstate⟩ := Prod.mk.inj hresult
  rw [hvalue, hstate]
  exact ⟨rfl, h.bump type.isFixed_kind.ne_endOfFile⟩

theorem rereads_declaration {d : Declaration} {s : State} {rest : List Token} (hd : d.Canonical)
    (h : s.Sees (d.spelling ++ rest)) :
    Rereads Declaration.unstamped (declaration s).result d rest := by
  obtain ⟨hne, hnames, htype⟩ := hd
  obtain ⟨type, htype⟩ := Option.isSome_iff_exists.mp htype
  simp only [Declaration.spelling, htype, Option.toList_some, List.map_cons, List.map_nil,
    List.append_assoc, List.cons_append, List.nil_append] at h
  obtain ⟨hread, ht⟩ := rereads_identifiers hne hnames (by decide) h
  obtain ⟨-, hu⟩ := sees_expect .varDecls ht trivial
  obtain ⟨hfound, hw⟩ := rereads_declType hu
  rw [declaration_result]
  refine ⟨?_, hw.tick⟩
  simp only [Declaration.unstamped, Declaration.mk.injEq]
  exact ⟨trivial, hread, hfound.trans htype.symm⟩

theorem exists_cons_cons_of_canonical {d : Declaration} (hd : d.Canonical) :
    ∃ x y rest, d.spelling = x :: y :: rest ∧ x.kind = .identifier ∧ y.kind ≠ .punct .equals := by
  obtain ⟨hne, hnames, -⟩ := hd
  obtain ⟨i, more, hidents⟩ := List.exists_cons_of_ne_nil hne
  have hi : i.IsName := hnames i (hidents ▸ List.mem_cons_self)
  obtain ⟨y, rest, hy, hkind⟩ := afterCommas_append (more.map ([·.token])) (.fixed (.keyword .as))
    (d.type.toList.map fun type => .fixed type.kind)
  refine ⟨i.token, y, rest, ?_, hi, ?_⟩
  · rw [Declaration.spelling, hidents, Ident.spellings, List.map_cons, commaSeparated, List.append_assoc,
      hy]
    rfl
  · rcases hkind with rfl | hcomma
    · decide
    · rw [hcomma]
      decide

theorem atDeclaration_of_sees {d : Declaration} {s : State} {rest : List Token} (hd : d.Canonical)
    (h : s.Sees (d.spelling ++ rest)) : AtDeclaration s := by
  obtain ⟨x, y, more, hspelling, hx, hy⟩ := exists_cons_cons_of_canonical hd
  rw [hspelling] at h
  refine ⟨h.kind.trans hx, ?_⟩
  rw [h.next_kind (hx ▸ by decide)]
  exact hy

theorem rereads_moreDeclarations {groups : List Declaration} {s : State} {x : Token}
    {rest : List Token} (hgroups : ∀ d ∈ groups, d.Canonical)
    (hx : x.kind = .identifier → ∃ y more, rest = y :: more ∧ y.kind = .punct .equals)
    (h : s.Sees (groups.flatMap Declaration.spelling ++ x :: rest)) :
    Rereads (List.map Declaration.unstamped) (moreDeclarations s).result groups (x :: rest) := by
  induction groups generalizing s with
  | nil =>
    have h : s.Sees (x :: rest) := h
    have hnot : ¬AtDeclaration s := by
      rintro ⟨hkind, hnext⟩
      have hx' : x.kind = .identifier := h.kind ▸ hkind
      obtain ⟨y, more, rfl, hy⟩ := hx hx'
      exact hnext ((h.next_kind (hx' ▸ by decide)).trans hy)
    rw [moreDeclarations_of_not hnot]
    exact ⟨rfl, h⟩
  | cons d groups ih =>
    obtain ⟨hd, hmore⟩ := List.forall_mem_cons.mp hgroups
    rw [List.flatMap_cons, List.append_assoc] at h
    obtain ⟨hread, hstate⟩ := rereads_declaration hd h
    rw [moreDeclarations_of (atDeclaration_of_sees hd h)]
    exact (ih hmore hstate).cons hread

theorem rereads_declarations {groups : List Declaration} {s : State} {x : Token} {rest : List Token}
    (hne : groups ≠ []) (hgroups : ∀ d ∈ groups, d.Canonical)
    (hx : x.kind = .identifier → ∃ y more, rest = y :: more ∧ y.kind = .punct .equals)
    (h : s.Sees (groups.flatMap Declaration.spelling ++ x :: rest)) :
    Rereads (List.map Declaration.unstamped) (declarations s).result groups (x :: rest) := by
  obtain ⟨d, groups, rfl⟩ := List.exists_cons_of_ne_nil hne
  obtain ⟨hd, hmore⟩ := List.forall_mem_cons.mp hgroups
  rw [List.flatMap_cons, List.append_assoc] at h
  obtain ⟨hread, hstate⟩ := rereads_declaration hd h
  rw [declarations_result]
  exact (rereads_moreDeclarations hmore hx hstate).cons hread

/-! ## Programs -/

theorem sees_ofTokens {tokens w : List Token} (h : (Token.beforeEnd tokens).map Token.essence = w) :
    ∃ x rest, x.kind = .endOfFile ∧ (State.ofTokens tokens).Sees (w ++ x :: rest) := by
  obtain ⟨x, rest, hx, hstream⟩ := Cursor.exists_endOfFile_ofTokens tokens
  refine ⟨x.essence, rest.map Token.essence, x.essence_kind.trans hx, ?_, rfl, rfl⟩
  rw [show (State.ofTokens tokens).cursor = Cursor.ofTokens tokens from rfl, hstream, List.map_append, h,
    List.map_cons]

/-- Every canonical `a` that is spelled ahead is read, if `x` after it allows that. -/
def RereadsEach {α : Type} (good : α → Prop) (allows : TokenKind → Prop) (spelling : α → List Token)
    (unstamped : α → α) : Reading α := fun s found t =>
  ∀ {a : α} {x : Token} {rest : List Token}, good a → allows x.kind →
    s.Sees (spelling a ++ x :: rest) → Rereads unstamped (found, t) a (x :: rest)

theorem filled_of_ne_nil {body : List Statement} (h : body ≠ []) (s : State) : s.filled body = s := by
  cases body with
  | nil => exact absurd rfl h
  | cons first rest => rfl

theorem rereads_parse (tokens : List Token) :
    RereadsEach Program.Canonical (· = .endOfFile) Program.spelling Program.unstamped (.ofTokens tokens)
      (parse tokens).program (parse tokens).final := by
  refine parse_rule
    (RereadsEach (fun groups => groups ≠ [] ∧ ∀ d ∈ groups, d.Canonical) (· ≠ .identifier)
      (List.flatMap Declaration.spelling) (List.map Declaration.unstamped))
    (RereadsEach (∀ st ∈ ·, st.Canonical) (· = .keyword .endProgram) Statement.spellings
      Statement.allUnstamped)
    (RereadsEach Program.Canonical (· = .endOfFile) Program.spelling Program.unstamped) ?_ ?_ ?_ tokens
  · intro s groups x rest hgroups hx h
    exact rereads_declarations hgroups.1 hgroups.2 (fun h => absurd h hx) h
  · intro s body x rest hbody hx h
    exact rereads_block [.keyword .endProgram] (by decide) hbody
      (fun st hst => rereads_statement (hbody st hst)) (hx ▸ .keyword _)
      (.inr (List.mem_singleton.mpr hx)) h
  · intro s t u ds ss name hgroups hblock p x rest hp hx h
    obtain ⟨⟨token, hname, hkind⟩, hne, hcanonical, hbody_ne, hbody⟩ := hp
    simp only [Program.spelling, hname, Option.toList_some, List.cons_append, List.append_assoc,
      List.nil_append] at h
    obtain ⟨-, h⟩ := sees_expect .program h trivial
    obtain ⟨hfound, h'⟩ :=
      sees_expectAny [.identifier] .program h (List.mem_singleton.mpr hkind) (by decide)
    rw [h.current_eq (hkind ▸ by decide)] at hfound
    obtain ⟨-, h⟩ := sees_expect .program h' trivial
    obtain ⟨hds, h⟩ := hgroups ⟨hne, hcanonical⟩ (by decide) h
    obtain ⟨-, h⟩ := sees_expect .program h trivial
    obtain ⟨hss, h⟩ := hblock hbody rfl h
    -- A block is not empty when its statements without stamps are not, so nothing is missed.
    have hss_ne : ss ≠ [] := by
      rintro rfl
      exact hbody_ne (Statement.allUnstamped_eq_nil_iff.mp hss.symm)
    obtain ⟨-, h⟩ := sees_expect .program h trivial
    rw [filled_of_ne_nil hss_ne, State.ended, if_pos (h.kind.trans hx)]
    refine ⟨?_, h⟩
    simp only [Program.unstamped, Program.mk.injEq]
    exact ⟨hfound.trans hname.symm, hds, hss, trivial⟩

/-! ## Trees and their spellings -/

/-- Up to the end of file `tokens` are those that `p` spells, but for the texts and the places of
fixed terminals. -/
def SpelledBy (tokens : List Token) (p : Program) : Prop :=
  (Token.beforeEnd tokens).map Token.essence = p.spelling

theorem spelledBy_spelling {p : Program} (hp : p.Canonical) : SpelledBy p.spelling p := by
  have hplain := p.isPlain_spelling hp
  unfold SpelledBy
  rw [Token.beforeEnd_eq_self fun t ht => (hplain t ht).ne_endOfFile]
  exact (List.map_congr_left fun t ht => (hplain t ht).essence).trans p.spelling.map_id'

theorem clean_of_spelledBy {tokens : List Token} {p : Program} (hp : p.Canonical)
    (h : SpelledBy tokens p) :
    (parse tokens).errors = [] ∧ (parse tokens).program.unstamped = p.unstamped := by
  obtain ⟨x, rest, hx, hsees⟩ := sees_ofTokens h
  obtain ⟨hread, hend⟩ := rereads_parse tokens hp hx hsees
  exact ⟨hend.errors, hread⟩

/-- Reading is the inverse of spelling. -/
theorem parse_inverts_spelling :
    (∀ p : Program, p.Canonical → SpelledBy p.spelling p ∧
      ∀ tokens, SpelledBy tokens p →
        (parse tokens).errors = [] ∧ (parse tokens).program.unstamped = p.unstamped) ∧
      ∀ tokens, (parse tokens).errors = [] →
        (parse tokens).program.Canonical ∧ SpelledBy tokens (parse tokens).program := by
  refine ⟨fun p hp => ⟨spelledBy_spelling hp, fun tokens => clean_of_spelledBy hp⟩, fun tokens h => ?_⟩
  obtain ⟨hcanonical, hspelling⟩ := canonical_of_clean h
  exact ⟨hcanonical, hspelling.symm⟩

def tripling : Program :=
  let x : Token := ⟨.identifier, "x", .start⟩
  let number (text : String) : Expr := .value .blank ⟨.integerLiteral, text, .start⟩
  { name := some ⟨.identifier, "tripling", .start⟩
    declarations := [⟨.blank, [⟨.blank, x⟩], some .integer⟩]
    statements :=
      [.assignment .blank ⟨.blank, x⟩
        (.binary .blank (number "1") .add (.binary .blank (.value .blank x) .mul (number "2")))]
    location := .start }

theorem canonical_tripling : tripling.Canonical where
  name := ⟨_, rfl, rfl⟩
  declarations_ne_nil := List.cons_ne_nil _ _
  declarations := List.forall_mem_singleton.mpr
    ⟨List.cons_ne_nil _ _, List.forall_mem_singleton.mpr rfl, rfl⟩
  statements_ne_nil := List.cons_ne_nil _ _
  statements := List.forall_mem_singleton.mpr (.assignment rfl (by
    refine ⟨?_, ⟨?_, ?_, not_false, not_false⟩, not_false⟩ <;>
      simp [Expr.Canonical, TokenKind.value]))

theorem parse_inverts_spelling_tripling :
    tripling.Canonical ∧
      (parse tripling.spelling).errors = [] ∧
        (parse tripling.spelling).program.unstamped = tripling.unstamped ∧
          SpelledBy tripling.spelling (parse tripling.spelling).program := by
  obtain ⟨hspelled, hparse⟩ := parse_inverts_spelling.1 tripling canonical_tripling
  obtain ⟨herrors, hprogram⟩ := hparse tripling.spelling hspelled
  exact ⟨canonical_tripling, herrors, hprogram,
    (parse_inverts_spelling.2 tripling.spelling herrors).2⟩

/-- A stream has no syntax error exactly when the grammar derives it up to its end of file. -/
theorem errors_eq_nil_iff_derives (tokens : List Token) :
    (parse tokens).errors = [] ↔
      Grammar.Construct.program.Derives ((Token.beforeEnd tokens).map Token.kind) := by
  rw [Grammar.derives_iff_exists_canonical]
  constructor
  · exact fun h => ⟨_, canonical_of_clean h⟩
  · rintro ⟨p, hp, hspelling⟩
    exact (clean_of_spelledBy hp hspelling.symm).1

end PalChecker.Parser
