import PalChecker.Proofs.Parser.DeclarationRules
import PalChecker.Proofs.Syntax.Canonical
import PalChecker.Proofs.Syntax.Nodes

/-!
# A run, move by move

A parse consumes tokens, reports errors and completes nodes, and it drops tokens only while it recovers
from an error. What holds at the start and is kept by each of these holds after every run.
-/

namespace PalChecker.Parser

/-! ## Moves -/

/-- What a parse does at once, apart from completing a node. -/
inductive State.Move : State → State → Prop where
  | consume {s : State} (h : s.kind ≠ .endOfFile) : Move s s.bump
  | fail {s : State} (n : Nonterminal) : Move s (s.fail n)
  | discard {s : State} (h : s.kind ≠ .endOfFile) (hs : s.recovering = true) : Move s s.discard
  | skip {s : State} (n : Nonterminal) (extra : List TokenKind) (hs : s.recovering = true) :
    Move s (s.synchronize n extra)

/-- A name and a value are completed once a token was consumed, and a part that could not be read while
its error is recovered from. -/
def State.Completes (s : State) : Node → Prop
  | .ident _ i => i.IsName ∧ s.recovering = false
  | .part _ (.value _ token) => token.kind ∈ TokenKind.value ∧ s.recovering = false
  | .part _ (.error _) => s.recovering = true
  | .group d => d.type = none → s.recovering = true
  | .part _ _ | .condition _ | .statement _ => True

/-- From `s` to `t` the nodes were completed, in this order and with moves in between. -/
inductive Builds : State → List Node → State → Prop where
  | refl (s : State) : Builds s [] s
  | move {s t u : State} {nodes : List Node} : Builds s nodes t → t.Move u → Builds s nodes u
  | complete {s t : State} {nodes : List Node} {n : Node} :
    Builds s nodes t → n.seq = t.nextSeq → t.Completes n → Builds s (nodes ++ [n]) t.tick

namespace Builds

variable {s t u : State} {a b : List Node}

theorem trans (ha : Builds s a t) (hb : Builds t b u) : Builds s (a ++ b) u := by
  induction hb with
  | refl => rwa [List.append_nil]
  | move _ hmove ih => exact ih.move hmove
  | complete _ hseq hcompletes ih =>
    rw [← List.append_assoc]
    exact ih.complete hseq hcompletes

theorem invariant {I : State → Prop} (hmove : ∀ {s t}, I s → s.Move t → I t)
    (htick : ∀ {s}, I s → I s.tick) (h : Builds s a t) (hs : I s) : I t := by
  induction h with
  | refl => exact hs
  | move _ h ih => exact hmove ih h
  | complete _ _ _ ih => exact htick ih

theorem one_move (h : s.Move t) : Builds s [] t := (refl s).move h

theorem bump (h : s.kind ≠ .endOfFile) (hb : Builds s.bump b t) : Builds s b t :=
  (one_move (.consume h)).trans hb

theorem recovered (h : Builds s a t) (n : Nonterminal) (kinds : List TokenKind) :
    Builds s a (t.recovered n kinds) :=
  (h.move (.fail n)).move (.skip n kinds (State.recovering_fail n t))

theorem expectAny (h : Builds s a t) (kinds : List TokenKind) (n : Nonterminal)
    (heof : .endOfFile ∉ kinds) : Builds s a (t.expectAny kinds n).state := by
  have hrecovered := h.recovered n kinds
  refine State.expectAny_rule (P := fun _ u => Builds s a u) n ?_ ?_ fun _ => hrecovered
  · exact fun hkind => h.move (.consume fun hend => heof (hend ▸ hkind))
  · exact fun hkind => hrecovered.move (.consume fun hend => heof (hend ▸ hkind))

theorem expect (h : Builds s a t) (k : TokenKind) (n : Nonterminal) (hk : k ≠ .endOfFile) :
    Builds s a (t.expect k n).state := h.expectAny [k] n (mt List.mem_singleton.mp hk.symm)

/-- The run up to where a node is completed, and from there on. -/
theorem exists_split (h : Builds s a t) {n : Node} (hn : n ∈ a) :
    ∃ before after u, a = before ++ n :: after ∧ Builds s before u ∧ u.Completes n ∧ n.seq = u.nextSeq ∧
      Builds u (n :: after) t := by
  induction h with
  | refl => exact absurd hn List.not_mem_nil
  | move _ hmove ih =>
    obtain ⟨before, after, u, rfl, hbefore, hcompletes, hseq, hafter⟩ := ih hn
    exact ⟨before, after, u, rfl, hbefore, hcompletes, hseq, hafter.move hmove⟩
  | @complete t nodes m hbuilds hm hcompletes ih =>
    rcases List.mem_append.mp hn with hn | hn
    · obtain ⟨before, after, u, rfl, hbefore, hcompletes', hseq, hafter⟩ := ih hn
      exact ⟨before, after ++ [m], u, List.append_assoc .., hbefore, hcompletes', hseq,
        hafter.complete hm hcompletes⟩
    · obtain rfl := List.mem_singleton.mp hn
      exact ⟨nodes, [], t, rfl, hbuilds, hcompletes, hm, (refl t).complete hm hcompletes⟩

end Builds

/-! ## Consuming or recovering -/

namespace State

theorem expectAny_of_some {kinds : List TokenKind} {n : Nonterminal} {s : State} {token : Token}
    (h : (s.expectAny kinds n).value = some token) :
    token.kind ∈ kinds ∧ (s.expectAny kinds n).state.recovering = false := by
  refine expectAny_rule (P := fun value t => value = some token → token.kind ∈ kinds ∧ t.recovering = false)
    n ?_ ?_ nofun h
  · rintro hkind ⟨⟩
    exact ⟨hkind, rfl⟩
  · rintro hkind ⟨⟩
    exact ⟨hkind, rfl⟩

theorem recovering_expectAny_of_none {kinds : List TokenKind} {n : Nonterminal} {s : State}
    (h : (s.expectAny kinds n).value = none) : (s.expectAny kinds n).state.recovering = true := by
  exact expectAny_rule (P := fun value t => value = none → t.recovering = true) n nofun nofun
    (fun _ _ => recovering_fail n s) h

end State

/-! ## Expressions -/

def BuildsParts : Reading Expr := fun s e t => ∀ checked, Builds s (e.nodes checked) t

/-- Extending an expression completes the parts that are added. -/
def BuildsMore (left : Expr) : Reading Expr := fun s e t =>
  ∀ checked, ∃ added, e.nodes checked = left.nodes checked ++ added ∧ Builds s added t

theorem BuildsParts.extend {s t u : State} {first e : Expr} (hfirst : BuildsParts s first t)
    (he : BuildsMore first t e u) : BuildsParts s e u := by
  intro checked
  obtain ⟨added, hadded, hbuilds⟩ := he checked
  rw [hadded]
  exact (hfirst checked).trans hbuilds

theorem BuildsMore.refl (left : Expr) (s : State) : BuildsMore left s left s :=
  fun _ => ⟨[], (List.append_nil _).symm, .refl s⟩

theorem BuildsMore.binary {s t u : State} {left right e : Expr} {op : BinaryOp} {start : Location}
    (h : s.kind ≠ .endOfFile) (hright : BuildsParts s.bump right t)
    (he : BuildsMore (.binary (t.stamp start) left op right) t.tick e u) : BuildsMore left s e u := by
  intro checked
  obtain ⟨added, hadded, hbuilds⟩ := he checked
  have hnode : Builds s (right.nodes checked ++ [.part checked (.binary (t.stamp start) left op right)])
      t.tick := ((hright checked).bump h).complete rfl trivial
  refine ⟨_, ?_, hnode.trans hbuilds⟩
  rw [hadded, Expr.nodes, List.append_assoc, List.append_assoc, List.append_assoc]

theorem building_expression_rules :
    ExpressionRules BuildsParts BuildsParts BuildsParts BuildsParts BuildsMore BuildsMore where
  sum first rest := first.extend rest
  sums_stop _ := .refl _ _
  sums_step h right rest := .binary (ne_endOfFile_of_additive h) right rest
  product first rest := first.extend rest
  products_stop _ := .refl _ _
  products_step h right rest := .binary (ne_endOfFile_of_multiplicative h) right rest
  signed h operand checked := ((operand checked).bump (ne_endOfFile_of_sign h)).complete rfl trivial
  unsigned _ operand := operand
  value {s} h _ := by
    have hstart := TokenKind.mem_operandStart_iff.mpr (.inl h)
    exact ((Builds.refl s.bump).bump (ne_endOfFile_of_operandStart hstart)).complete rfl ⟨h, rfl⟩
  group h inner checked :=
    (((inner checked).bump (by rw [h]; decide)).expect (.punct .rparen) .factor (by decide)).complete rfl
      trivial
  retry {s _ _} _ _ factor checked := ((Builds.refl s).recovered .factor []).trans (factor checked)
  error {s} _ _ _ := ((Builds.refl s).recovered .factor []).complete rfl (s.recovering_fail .factor)

theorem builds_expression (s : State) : BuildsParts s (expression s).value (expression s).state :=
  building_expression_rules.run.1 s

/-! ## Names, values and tests -/

/-- Reading names completes them, whether they are declared or used. -/
def BuildsNames : Reading (List Ident) := fun s idents t =>
  ∀ checked, Builds s (idents.map (.ident checked)) t

def BuildsName : Reading (Option Ident) := fun s found t =>
  ∀ checked, Builds s (found.toList.map (.ident checked)) t

theorem BuildsName.names {s t u : State} {first : Option Ident} {rest : List Ident}
    (hfirst : BuildsName s first t) (hrest : BuildsNames t rest u) :
    BuildsNames s (first.toList ++ rest) u := by
  intro checked
  rw [List.map_append]
  exact (hfirst checked).trans (hrest checked)

theorem building_part_rules :
    PartRules BuildsParts (fun s c t => Builds s c.nodes t) BuildsName BuildsNames BuildsNames
      (fun s values t => Builds s (Expr.outputNodes values) t) where
  test hleft hright := by
    have hop := (hleft true).expectAny TokenKind.relationalOperator .booleanExpr (by decide)
    exact (hop.trans (hright true)).complete rfl trivial
  name {s token} := by
    intro name hname checked
    obtain ⟨hkind, hrecovering⟩ := State.expectAny_of_some hname
    exact ((Builds.refl s).expect .identifier .identList (by decide)).complete rfl
      ⟨List.mem_singleton.mp hkind, hrecovering⟩
  no_name {s} _ checked := (Builds.refl s).expect .identifier .identList (by decide)
  names_stop _ checked := .refl _
  names_step h first rest := BuildsName.names (fun checked => (first checked).bump (by rw [h]; decide)) rest
  names first rest := first.names rest
  values_stop _ := .refl _
  values_step h first rest := ((first _).bump (by rw [h]; decide)).trans rest

theorem builds_identifiers (s : State) : BuildsNames s (identifiers s).value (identifiers s).state :=
  building_part_rules.run_names s

/-! ## Statements -/

theorem builds_target {s : State} (h : s.kind = .identifier) :
    Builds s [.ident true ⟨s.bump.stamp s.location, s.current⟩] s.bump.tick :=
  ((Builds.refl s.bump).bump (by rw [h]; decide)).complete rfl ⟨h, rfl⟩

theorem builds_stepped {s : State} (h : s.kind ≠ .endOfFile) : Builds s [] s.stepped := by
  have hkind : (s.fail .statement).kind ≠ .endOfFile := by rwa [State.kind_fail]
  have hrecovering := s.recovering_fail .statement
  exact ((Builds.one_move (.fail .statement)).move (.discard hkind hrecovering)).move
    (.skip .statement [] hrecovering)

/-- Runs with something told of their conditions. Whatever reads a condition besides, it holds of runs
without one, and of one run behind the other. -/
structure Gathers (R : State → List Node → State → Prop) : Prop where
  of_builds {s t : State} {a : List Node} : (∀ c, .condition c ∉ a) → Builds s a t → R s a t
  trans {s t u : State} {a b : List Node} : R s a t → R t b u → R s (a ++ b) u

namespace Gathers

variable {R : State → List Node → State → Prop} {s t u : State} {a : List Node}

theorem builds : Gathers Builds where
  of_builds _ h := h
  trans := Builds.trans

theorem from_idle (hR : Gathers R) (hidle : Builds s [] t) (h : R t a u) : R s a u :=
  hR.trans (hR.of_builds (fun _ => List.not_mem_nil) hidle) h

theorem then_idle (hR : Gathers R) (h : R s a t) (hidle : Builds t [] u) : R s a u := by
  have hboth := hR.trans h (hR.of_builds (fun _ => List.not_mem_nil) hidle)
  rwa [List.append_nil] at hboth

theorem bump (hR : Gathers R) (hs : s.kind ≠ .endOfFile) (h : R s.bump a t) : R s a t :=
  hR.from_idle (.one_move (.consume hs)) h

theorem expect (hR : Gathers R) (h : R s a t) (k : TokenKind) (n : Nonterminal) (hk : k ≠ .endOfFile) :
    R s a (t.expect k n).state := hR.then_idle h ((Builds.refl t).expect k n hk)

theorem complete (hR : Gathers R) (h : R s a t) {st : Statement} (hseq : st.stamp.seq = t.nextSeq) :
    R s (a ++ [.statement st]) t.tick := by
  have hnode : Builds t [.statement st] t.tick := (Builds.refl t).complete hseq trivial
  exact hR.trans h (hR.of_builds (fun c hc => by cases List.mem_singleton.mp hc) hnode)

theorem statement_rules (hR : Gathers R) :
    StatementRules BuildsParts (fun s c t => R s c.nodes t) BuildsNames
      (fun s values t => Builds s (Expr.outputNodes values) t)
      (fun s statement t => R s statement.nodes t)
      fun _ s body t => R s (Statement.allNodes body) t where
  assignment {s t value} h _ hvalue := by
    have hequals := (builds_target h).expect (.punct .equals) .assignment (by decide)
    refine hR.complete (hR.of_builds (fun c hc => ?_) (hequals.trans (hvalue true))) rfl
    exact value.condition_not_mem_nodes c true ((List.mem_cons.mp hc).resolve_left nofun)
  target {s} h := by
    intro equals hequals
    have htarget := (builds_target h).expect (.punct .equals) .assignment (by decide)
    have hvalue : Builds s _ equals.state.tick :=
      htarget.complete (n := .part true (.error (equals.state.stamp s.location))) rfl
        (State.recovering_expectAny_of_none hequals)
    exact hR.complete (hR.of_builds (by simp) hvalue) rfl
  loop h test body := by
    have hopen := hR.expect (hR.bump (by rw [h]; decide) test) (.keyword .repeatBody) .loop (by decide)
    exact hR.complete (hR.expect (hR.trans hopen body) (.keyword .endLoop) .loop (by decide)) rfl
  conditional h test whenTrue _ := by
    have hopen :=
      hR.expect (hR.bump (by rw [h]; decide) test) (.keyword .thenBranch) .conditional (by decide)
    exact hR.complete (hR.expect (hR.trans hopen whenTrue) (.keyword .endIf) .conditional (by decide)) rfl
  alternative h test whenTrue helse otherwise := by
    have hopen :=
      hR.expect (hR.bump (by rw [h]; decide) test) (.keyword .thenBranch) .conditional (by decide)
    have hblocks := hR.trans (hR.trans hopen whenTrue) (hR.bump (by rw [helse]; decide) otherwise)
    exact hR.complete (hR.expect hblocks (.keyword .endIf) .conditional (by decide)) rfl
  input h targets := hR.complete (hR.of_builds (by simp) ((targets true).bump (by rw [h]; decide))) rfl
  output {s t u first rest} h hfirst hrest := by
    have hvalues : Builds s (Expr.outputNodes (first :: rest)) u :=
      ((hfirst _).bump (by rw [h]; decide)).trans hrest
    refine hR.complete (hR.of_builds (fun c hc => ?_) hvalues) rfl
    obtain ⟨e, -, he⟩ := List.mem_flatMap.mp hc
    exact e.condition_not_mem_nodes c _ he
  stop _ := hR.of_builds (fun _ => List.not_mem_nil) (.refl _)
  step _ _ first rest := hR.trans first rest
  skip h _ rest := hR.from_idle (builds_stepped (not_or.mp h).1) rest

theorem run_statements (hR : Gathers R) (test : ∀ s, R s (condition s).value.nodes (condition s).state)
    (stops : List TokenKind) (s : State) :
    R s (Statement.allNodes (statements stops s).value) (statements stops s).state :=
  hR.statement_rules.run builds_expression test builds_identifiers
    (building_part_rules.run_moreValues builds_expression) stops s

end Gathers

/-! ## Declarations and programs -/

theorem builds_untyped (s : State) : Builds s [] s.untyped := by
  have hfail : Builds s [] (s.fail .type) := .one_move (.fail .type)
  have hrecovering := s.recovering_fail .type
  refine State.dropName_rule (P := fun t => Builds s [] (t.synchronize .type []))
    (hfail.move (.skip .type [] hrecovering)) fun hkind => ?_
  exact (hfail.move (.discard (by rw [hkind]; decide) hrecovering)).move (.skip .type [] hrecovering)

theorem recovering_untyped (s : State) : s.untyped.recovering = true := by
  have hrecovering := s.recovering_fail .type
  exact State.dropName_rule (P := fun t => t.recovering = true) hrecovering fun _ => hrecovering

theorem building_declaration_rules :
    DeclarationRules BuildsNames
      (fun s type t => Builds s [] t ∧ (type = none → t.recovering = true))
      (fun s d t => Builds s d.nodes t) (fun s groups t => Builds s (groups.flatMap Declaration.nodes) t)
      fun s groups t => Builds s (groups.flatMap Declaration.nodes) t where
  real h := ⟨.one_move (.consume (by rw [h]; decide)), nofun⟩
  integer h := ⟨.one_move (.consume (by rw [h]; decide)), nofun⟩
  no_type {s} _ _ := ⟨builds_untyped s, fun _ => recovering_untyped s⟩
  group names type := by
    have hlink := (names false).expect (.keyword .as) .varDecls (by decide)
    have htype := hlink.trans type.1
    rw [List.append_nil] at htype
    exact htype.complete rfl type.2
  stop _ := .refl _
  step _ first rest := first.trans rest
  groups first rest := first.trans rest

theorem Builds.filled {s t : State} {a : List Node} (h : Builds s a t) (body : List Statement) :
    Builds s a (t.filled body) := State.filled_rule (P := Builds s a) body h (h.move (.fail .statement))

theorem Builds.ended {s t : State} {a : List Node} (h : Builds s a t) : Builds s a t.ended :=
  State.ended_rule (P := Builds s a) h (h.move (.fail .program))

/-- What is told of every condition can be told of a parse. -/
theorem Gathers.run {R : State → List Node → State → Prop} (hR : Gathers R)
    (test : ∀ s, R s (condition s).value.nodes (condition s).state) (tokens : List Token) :
    R (.ofTokens tokens) (parse tokens).program.nodes (parse tokens).final := by
  refine parse_rule (fun s groups t => Builds s (groups.flatMap Declaration.nodes) t)
    (fun s body t => R s (Statement.allNodes body) t) (fun s p t => R s p.nodes t)
    (building_declaration_rules.run builds_identifiers) (hR.run_statements test _) ?_ tokens
  intro s t u groups body name hgroups hbody
  have hheader := (((Builds.refl s).expect (.keyword .program) .program (by decide)).expect
    (k := .identifier) .program (by decide)).expect (.keyword .withDecls) .program (by decide)
  have hmiddle := (hheader.trans hgroups).expect (.keyword .inBody) .program (by decide)
  have hclose := (((Builds.refl u).filled body).expect (.keyword .endProgram) .program (by decide)).ended
  exact hR.then_idle (hR.trans (hR.of_builds (by simp [Declaration.nodes]) hmiddle) hbody) hclose

theorem builds_parse (tokens : List Token) :
    Builds (.ofTokens tokens) (parse tokens).program.nodes (parse tokens).final :=
  Gathers.builds.run (building_part_rules.run_test builds_expression) tokens

end PalChecker.Parser
