import PalChecker.Proofs.Parser.MirroredPrograms

/-!
# Reading on after an error

What is spelled by a canonical tree is passed over from every state, also while an error is being
recovered from. So once an error is behind, everything that is read adds no other.
-/

namespace PalChecker.Parser

/-! ## Passing over what is spelled -/

/-- A state at the same place with nothing behind it. -/
def State.fresh (s : State) : State := ⟨s.cursor, false, 0, []⟩

theorem sees_fresh (s : State) : s.fresh.Sees (s.upcoming.map Token.essence) := ⟨rfl, rfl, rfl⟩

/-- A fork at which the streams go on alike. -/
class Fork.Reflexive (fork : Fork) : Prop where
  refl (v : List Token) (y : Token) (X : List Token) : fork v (y :: X) (y :: X)

instance : Fork.Reflexive sharing where
  refl _ y X := ⟨y, X, X, rfl, rfl⟩

instance : Fork.Reflexive parting where
  refl _ y X := ⟨y, X, y, X, rfl, rfl, .inl rfl⟩

instance (r : Grammar.Rule) : Fork.Reflexive (lookingOn r) where
  refl _ y X := ⟨⟨y, X, X, rfl, rfl⟩, fun _ => .rfl⟩

theorem passes_of_rereads {α : Type} {fork : Fork} [fork.Reflexive] {R : α → α → Prop}
    {f : State → α × State} {s : State} {u rest : List Token} {x : Token}
    (hmirror : Mirrors fork R s.fresh (f s.fresh) s (f s))
    (hread : s.fresh.Sees ((u ++ x :: rest).map Token.essence) →
      (f s.fresh).2.Sees ((x :: rest).map Token.essence))
    (h : s.upcoming = u ++ x :: rest) : s.Passes u (f s).2 ∧ R (f s.fresh).1 (f s).1 := by
  have hsees := hread (h ▸ sees_fresh s)
  have hlength := congrArg List.length hsees.stream
  simp only [List.length_map] at hlength
  exact (hmirror.passes rfl hsees.errors (Fork.Reflexive.refl u x rest) h h hlength).2

/-! ## One error behind -/

/-- Of what was reported up to now `P` holds, and `w` is ahead. -/
structure State.Faulted (P : List Diagnostic → Prop) (s : State) (w : List Token) : Prop where
  stream : s.upcoming.map Token.essence = w
  reported : P (s.errors.map Finding.diagnostic)

namespace State.Faulted

variable {P : List Diagnostic → Prop} {s : State} {x : Token} {rest : List Token}

theorem tick (h : s.Faulted P rest) : s.tick.Faulted P rest := ⟨h.stream, h.reported⟩

theorem exists_upcoming (h : s.Faulted P (x :: rest)) :
    ∃ y more, s.upcoming = y :: more ∧ y.essence = x ∧ more.map Token.essence = rest :=
  List.map_eq_cons_iff.mp h.stream

theorem kind (h : s.Faulted P (x :: rest)) : s.kind = x.kind := by
  obtain ⟨y, more, hupcoming, rfl, -⟩ := h.exists_upcoming
  rw [State.kind_of_upcoming hupcoming, Token.essence_kind]

theorem bump (h : s.Faulted P (x :: rest)) (hx : x.kind ≠ .endOfFile) : s.bump.Faulted P rest where
  stream := by
    obtain ⟨y, more, hupcoming, rfl, hmore⟩ := h.exists_upcoming
    rw [Token.essence_kind] at hx
    rw [State.upcoming_bump_of_cons hupcoming hx, hmore]
  reported := by
    rw [State.errors_bump]
    exact h.reported

theorem expectAny {kinds : List TokenKind} (h : s.Faulted P (x :: rest)) (n : Nonterminal)
    (hx : x.kind ∈ kinds) (heof : .endOfFile ∉ kinds) : (s.expectAny kinds n).state.Faulted P rest := by
  rw [(Prod.mk.inj (State.expectAny_of_mem n (h.kind ▸ hx))).2]
  exact h.bump fun hx' => heof (hx' ▸ hx)

theorem expect {k : TokenKind} (h : s.Faulted P (.fixed k :: rest)) (n : Nonterminal) (hk : k.IsFixed) :
    (s.expect k n).state.Faulted P rest :=
  h.expectAny n (List.mem_singleton.mpr rfl) (mt List.mem_singleton.mp hk.ne_endOfFile.symm)

/-- What is read without an error when nothing is behind adds none to what is. -/
theorem reread {α : Type} {fork : Fork} [fork.Reflexive] {R : α → α → Prop} {f : State → α × State}
    {w : List Token} (h : s.Faulted P (w ++ x :: rest))
    (hmirror : Mirrors fork R s.fresh (f s.fresh) s (f s))
    (hread : s.fresh.Sees (w ++ x :: rest) → (f s.fresh).2.Sees (x :: rest)) :
    (f s).2.Faulted P (x :: rest) := by
  obtain ⟨u, behind, hupcoming, rfl, hbehind⟩ := List.map_eq_append_iff.mp h.stream
  obtain ⟨y, more, rfl, rfl, rfl⟩ := List.map_eq_cons_iff.mp hbehind
  rw [← List.map_cons, ← List.map_append] at hread
  have hpasses := (passes_of_rereads hmirror hread hupcoming).1
  refine ⟨congrArg (List.map Token.essence) (hpasses.upcoming_eq hupcoming), ?_⟩
  rw [hpasses.errors]
  exact h.reported

theorem expression {e : Expr} (h : s.Faulted P (e.spelling ++ x :: rest)) (he : e.Canonical)
    (hadditive : BinaryOp.additive? x.kind = none)
    (hmultiplicative : BinaryOp.multiplicative? x.kind = none) :
    (Parser.expression s).state.Faulted P (x :: rest) :=
  h.reread (f := fun s => (Parser.expression s).result) (mirrored_expression s.fresh s) fun hs =>
    (rereads_expression he hadditive hmultiplicative hs).2

theorem moreValues {values : List Expr}
    (h : s.Faulted P (afterCommas (values.map Expr.spelling) ++ x :: rest))
    (hvalues : ∀ e ∈ values, e.Canonical) (hx : Ends x.kind) :
    (Parser.moreValues s).state.Faulted P (x :: rest) :=
  h.reread (f := fun s => (Parser.moreValues s).result) (mirrored_moreValues s.fresh s) fun hs =>
    (rereads_moreValues hvalues hx hs).2

theorem block (stops : List TokenKind) {body : List Statement}
    (h : s.Faulted P (Statement.spellings body ++ x :: rest))
    (hstops : ∀ k ∈ TokenKind.statementStart, k ∉ stops) (hbody : ∀ st ∈ body, st.Canonical)
    (hx : Ends x.kind) (hstop : x.kind ∈ stops) : (statements stops s).state.Faulted P (x :: rest) :=
  h.reread (f := fun s => (statements stops s).result) (mirrored_statements stops s.fresh s) fun hs =>
    (rereads_block stops hstops hbody (fun st hst => rereads_statement (hbody st hst)) hx (.inr hstop)
      hs).2

theorem moreDeclarations {groups : List Declaration}
    (h : s.Faulted P (groups.flatMap Declaration.spelling ++ x :: rest))
    (hgroups : ∀ d ∈ groups, d.Canonical) (hx : x.kind ≠ .identifier) :
    (Parser.moreDeclarations s).state.Faulted P (x :: rest) :=
  h.reread (f := fun s => (Parser.moreDeclarations s).result) (mirrored_moreDeclarations s.fresh s)
    fun hs => (rereads_moreDeclarations hgroups (fun h => absurd h hx) hs).2

theorem declarations {groups : List Declaration}
    (h : s.Faulted P (groups.flatMap Declaration.spelling ++ x :: rest)) (hne : groups ≠ [])
    (hgroups : ∀ d ∈ groups, d.Canonical) (hx : x.kind ≠ .identifier) :
    (Parser.declarations s).state.Faulted P (x :: rest) :=
  h.reread (f := fun s => (Parser.declarations s).result) (mirrored_declarations s.fresh s)
    fun hs => (rereads_declarations hne hgroups (fun h => absurd h hx) hs).2

end State.Faulted

/-! ## The error itself -/

/-- One error of `n` alone makes `P` hold. -/
def Admits (P : List Diagnostic → Prop) (n : Nonterminal) : Prop :=
  ∀ found, P [.syntaxError n found]

namespace State

theorem upcoming_recovered {n : Nonterminal} {kinds : List TokenKind} {s : State}
    (h : s.kind = .endOfFile ∨ s.kind ∈ n.syncSet) : (s.recovered n kinds).upcoming = s.upcoming := by
  obtain ⟨rest, hrest⟩ := s.exists_upcoming
  have hkind : (s.fail n).kind = s.kind := kind_of_upcoming ((s.upcoming_fail n).trans hrest)
  rw [upcoming_synchronize (hkind ▸ h.imp_right (List.mem_append_left _)), upcoming_fail]

theorem expectAny_of_absent {n : Nonterminal} {kinds : List TokenKind} {s : State} (hs : s.kind ∉ kinds)
    (h : (s.recovered n kinds).kind ∉ kinds) :
    (s.expectAny kinds n).result = (none, s.recovered n kinds) := by
  rw [expectAny_of_not_mem n hs, eatAny_of_not_mem h]

theorem expectAny_of_missing {n : Nonterminal} {kinds : List TokenKind} {s : State} (hs : s.kind ∉ kinds)
    (h : s.kind = .endOfFile ∨ s.kind ∈ n.syncSet) :
    (s.expectAny kinds n).result = (none, s.recovered n kinds) := by
  obtain ⟨rest, hrest⟩ := s.exists_upcoming
  have hkind : (s.recovered n kinds).kind = s.kind :=
    kind_of_upcoming ((upcoming_recovered h).trans hrest)
  exact expectAny_of_absent hs (hkind ▸ hs)

theorem Faulted.recovered {P : List Diagnostic → Prop} {n : Nonterminal} {s : State} {x : Token}
    {rest : List Token} (h : s.Faulted P (x :: rest)) (hs : s.recovering = true)
    (hx : x.kind = .endOfFile ∨ x.kind ∈ n.syncSet) (kinds : List TokenKind) :
    (s.recovered n kinds).Faulted P (x :: rest) where
  stream := by
    rw [upcoming_recovered (h.kind ▸ hx)]
    exact h.stream
  reported := by
    rw [errors_synchronize, errors_fail_of_recovering n hs]
    exact h.reported

end State

section

variable {P : List Diagnostic → Prop} {n : Nonterminal} {s : State} {x : Token} {rest : List Token}

theorem faulted_fail {w : List Token} (hP : Admits P n) (h : s.Sees w) : (s.fail n).Faulted P w where
  stream := by
    rw [State.upcoming_fail]
    exact h.stream
  reported := by
    rw [State.errors_fail_of_not_recovering n h.recovering, h.errors]
    exact hP _

theorem faulted_recovered (hP : Admits P n) (h : s.Sees (x :: rest))
    (hx : x.kind = .endOfFile ∨ x.kind ∈ n.syncSet) (kinds : List TokenKind) :
    (s.recovered n kinds).Faulted P (x :: rest) where
  stream := by
    rw [State.upcoming_recovered (h.kind ▸ hx)]
    exact h.stream
  reported := by
    rw [State.errors_synchronize]
    exact (faulted_fail hP h).reported

theorem faulted_expectAny (kinds : List TokenKind) (hP : Admits P n) (h : s.Sees (x :: rest))
    (hkinds : x.kind ∉ kinds) (hx : x.kind = .endOfFile ∨ x.kind ∈ n.syncSet) :
    (s.expectAny kinds n).state.Faulted P (x :: rest) := by
  rw [(Prod.mk.inj (State.expectAny_of_missing (h.kind ▸ hkinds) (h.kind ▸ hx))).2]
  exact faulted_recovered hP h hx kinds

end

end PalChecker.Parser
