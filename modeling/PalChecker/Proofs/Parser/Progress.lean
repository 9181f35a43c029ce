import PalChecker.Proofs.Parser.RoundTrip

/-!
# What lies ahead and what was done

A state sees the tokens from the current one on. Its journal only grows and its stream only gets
shorter, whatever is read, so what was done early in a run can be told from the journal at its end.
-/

namespace PalChecker.Parser

/-! ## What lies ahead -/

namespace State

/-- The tokens from the current one on, the closing one included. -/
def upcoming (s : State) : List Token := s.cursor.ahead ++ [s.cursor.closing]

theorem upcoming_ofTokens (tokens : List Token) :
    (State.ofTokens tokens).upcoming = (Cursor.ofTokens tokens).stream := by
  rw [Cursor.stream, Cursor.passed_ofTokens]
  rfl

theorem length_upcoming (s : State) : s.upcoming.length = s.remaining + 1 := by
  rw [upcoming, List.length_append, List.length_singleton]
  rfl

theorem exists_upcoming (s : State) : ∃ rest, s.upcoming = s.current :: rest := by
  unfold upcoming current Cursor.current
  cases s.cursor.ahead with
  | nil => exact ⟨[], rfl⟩
  | cons x rest => exact ⟨rest ++ [s.cursor.closing], rfl⟩

theorem current_of_upcoming {s : State} {x : Token} {rest : List Token}
    (h : s.upcoming = x :: rest) : s.current = x := by
  obtain ⟨more, hmore⟩ := s.exists_upcoming
  exact (List.cons.inj (hmore.symm.trans h)).1

theorem kind_of_upcoming {s : State} {x : Token} {rest : List Token} (h : s.upcoming = x :: rest) :
    s.kind = x.kind := congrArg Token.kind (current_of_upcoming h)

theorem current_eq_of_append {s s' : State} {v Y Y' : List Token} {x : Token}
    (h : s.upcoming = v ++ x :: Y) (h' : s'.upcoming = v ++ x :: Y') : s'.current = s.current := by
  cases v with
  | nil => rw [current_of_upcoming h, current_of_upcoming h']
  | cons t v => rw [current_of_upcoming h, current_of_upcoming h']

theorem upcoming_bump {s : State} (h : s.kind ≠ .endOfFile) :
    s.upcoming = s.current :: s.bump.upcoming := by
  have hahead : s.cursor.ahead ≠ [] := List.ne_nil_of_length_pos (s.remaining_pos h)
  obtain ⟨first, more, hcons⟩ := List.exists_cons_of_ne_nil hahead
  simp only [upcoming, current, Cursor.current, cursor_bump, Cursor.advance, hcons, List.cons_append,
    List.headD_cons]

theorem upcoming_bump_of_cons {s : State} {x : Token} {rest : List Token} (h : s.upcoming = x :: rest)
    (hx : x.kind ≠ .endOfFile) : s.bump.upcoming = rest := by
  have hbump := upcoming_bump (s := s) (kind_of_upcoming h ▸ hx)
  exact (List.cons.inj (hbump.symm.trans h)).2

theorem upcoming_discard_of_cons {s : State} {x : Token} {rest : List Token}
    (h : s.upcoming = x :: rest) (hx : x.kind ≠ .endOfFile) : s.discard.upcoming = rest :=
  upcoming_bump_of_cons h hx

@[simp] theorem upcoming_fail (n : Nonterminal) (s : State) : (s.fail n).upcoming = s.upcoming := by
  unfold fail
  split <;> rfl

theorem upcoming_synchronize_eq (n : Nonterminal) (extra : List TokenKind) (s : State) :
    (s.synchronize n extra).upcoming =
      s.upcoming.dropWhile fun t => ¬Cursor.Halts (n.syncSet ++ extra) t := by
  have hclosing : Cursor.Halts (n.syncSet ++ extra) (s.synchronize n extra).cursor.closing :=
    .inl s.cursor.closing_kind
  exact (dropWhile_append_stop (by simpa using hclosing) s.cursor.ahead []).symm

theorem upcoming_synchronize_of_append {n : Nonterminal} {extra : List TokenKind} {s : State}
    {u rest : List Token} {x : Token} (h : s.upcoming = u ++ x :: rest)
    (hu : ∀ t ∈ u, ¬Cursor.Halts (n.syncSet ++ extra) t) (hx : Cursor.Halts (n.syncSet ++ extra) x) :
    (s.synchronize n extra).upcoming = x :: rest := by
  rw [upcoming_synchronize_eq, h]
  exact (run_append_stop (fun t ht => decide_eq_true (hu t ht)) (by simpa using hx) rest).2

theorem upcoming_synchronize {n : Nonterminal} {extra : List TokenKind} {s : State}
    (h : s.kind = .endOfFile ∨ s.kind ∈ n.syncSet ++ extra) :
    (s.synchronize n extra).upcoming = s.upcoming := by
  obtain ⟨rest, hrest⟩ := s.exists_upcoming
  have hhalts : Cursor.Halts (n.syncSet ++ extra) s.current := h
  rw [upcoming_synchronize_eq, hrest, List.dropWhile_cons_of_neg (by simp [hhalts])]

/-! ## What was done -/

/-- What was done up to `s` was done before `t`, and no tokens came back. -/
def Precedes (s t : State) : Prop := s.journal <:+ t.journal ∧ t.remaining ≤ s.remaining

namespace Precedes

variable {s t u : State}

theorem refl (s : State) : s.Precedes s := ⟨List.suffix_rfl, Nat.le_refl _⟩

theorem trans (h : s.Precedes t) (h' : t.Precedes u) : s.Precedes u :=
  ⟨h.1.trans h'.1, Nat.le_trans h'.2 h.2⟩

theorem tick (h : s.Precedes t) : s.Precedes t.tick := h

theorem bump (h : s.Precedes t) : s.Precedes t.bump :=
  h.trans ⟨List.suffix_cons _ _, t.remaining_bump_le⟩

theorem of_bump (h : s.bump.Precedes t) : s.Precedes t := (refl s).bump.trans h

theorem fail (h : s.Precedes t) (n : Nonterminal) : s.Precedes (t.fail n) := by
  refine h.trans ⟨?_, Nat.le_of_eq (t.remaining_fail n)⟩
  unfold State.fail
  split <;> exact List.suffix_cons _ _

theorem discard (h : s.Precedes t) : s.Precedes t.discard :=
  h.trans ⟨List.suffix_cons _ _, t.remaining_discard ▸ Nat.sub_le _ _⟩

theorem synchronize (h : s.Precedes t) (n : Nonterminal) (extra : List TokenKind) :
    s.Precedes (t.synchronize n extra) :=
  h.trans ⟨List.suffix_cons _ _, t.remaining_synchronize_le n extra⟩

theorem recovered (h : s.Precedes t) (n : Nonterminal) (kinds : List TokenKind) :
    s.Precedes (t.recovered n kinds) := (h.fail n).synchronize n kinds

theorem eatAny (h : s.Precedes t) (kinds : List TokenKind) : s.Precedes (t.eatAny kinds).state := by
  unfold State.eatAny
  split
  · exact h.bump
  · exact h

theorem expectAny (h : s.Precedes t) (kinds : List TokenKind) (n : Nonterminal) :
    s.Precedes (t.expectAny kinds n).state := by
  unfold State.expectAny
  split
  · exact h.bump
  · exact (h.recovered n kinds).eatAny kinds

theorem expect (h : s.Precedes t) (kind : TokenKind) (n : Nonterminal) :
    s.Precedes (t.expect kind n).state := h.expectAny [kind] n

theorem errors (h : s.Precedes t) : s.errors <+: t.errors :=
  (List.reverse_prefix.mpr h.1).filterMap Action.finding?

theorem length_upcoming (h : s.Precedes t) : t.upcoming.length ≤ s.upcoming.length := by
  rw [State.length_upcoming, State.length_upcoming]
  exact Nat.succ_le_succ h.2

end Precedes

theorem precedes_of_none {kinds : List TokenKind} {n : Nonterminal} {s : State}
    (h : (s.expectAny kinds n).value = none) :
    (s.fail n).Precedes (s.expectAny kinds n).state := by
  by_cases hs : s.kind ∈ kinds
  · cases h.symm.trans (Prod.mk.inj (expectAny_of_mem n hs)).1
  · rw [(Prod.mk.inj (expectAny_of_not_mem n hs)).2]
    exact ((Precedes.refl _).synchronize n kinds).eatAny kinds

end State

/-! ## Every reading comes later -/

/-- Reading keeps what was done. -/
abbrev Later {α : Type} : Reading α := fun s _ t => s.Precedes t

theorem later_expression_rules :
    ExpressionRules Later Later Later Later (fun _ => Later) fun _ => Later where
  sum first rest := first.trans rest
  sums_stop {s _} _ := .refl s
  sums_step _ right rest := right.of_bump.trans rest
  product first rest := first.trans rest
  products_stop {s _} _ := .refl s
  products_step _ right rest := right.of_bump.trans rest
  signed _ operand := operand.of_bump
  unsigned _ operand := operand
  value {s} _ := (State.Precedes.refl s).bump
  group _ inner := inner.of_bump.expect _ _
  retry {s _ _} _ _ factor := ((State.Precedes.refl s).recovered _ _).trans factor
  error {s} _ _ := (State.Precedes.refl s).recovered _ _

theorem later_expression (s : State) : s.Precedes (expression s).state :=
  later_expression_rules.run.1 s

theorem later_part_rules : PartRules Later Later Later Later Later Later where
  test left right := (left.expectAny _ _).trans right
  name {s _} _ := (State.Precedes.refl s).expect _ _
  no_name {s} _ := (State.Precedes.refl s).expect _ _
  names_stop {s} _ := .refl s
  names_step _ first rest := first.of_bump.trans rest
  names first rest := first.trans rest
  values_stop {s} _ := .refl s
  values_step _ first rest := first.of_bump.trans rest

theorem later_condition (s : State) : s.Precedes (condition s).state :=
  later_part_rules.run_test later_expression s

theorem later_identifiers (s : State) : s.Precedes (identifiers s).state :=
  later_part_rules.run_names s

theorem later_moreValues (s : State) : s.Precedes (moreValues s).state :=
  later_part_rules.run_moreValues later_expression s

theorem later_statement_rules : StatementRules Later Later Later Later Later fun _ => Later where
  assignment {s _ _} _ _ value := (((State.Precedes.refl s).bump.tick.expect _ _).trans value).tick
  target {s} _ _ := ((State.Precedes.refl s).bump.tick.expect _ _).tick.tick
  loop _ test body := ((test.of_bump.expect _ _).trans body).expect _ _
  conditional _ test block _ := ((test.of_bump.expect _ _).trans block).expect _ _
  alternative _ test block _ otherwise :=
    (((test.of_bump.expect _ _).trans block).trans otherwise.of_bump).expect _ _
  input _ targets := targets.of_bump
  output _ first rest := first.of_bump.trans rest
  stop {_ s} _ := .refl s
  step _ _ first rest := first.trans rest
  skip {_ s _ _} _ _ rest := (((State.Precedes.refl s).fail _).discard.synchronize _ _).trans rest

theorem later_statements (stops : List TokenKind) (s : State) :
    s.Precedes (statements stops s).state :=
  later_statement_rules.run later_expression later_condition later_identifiers later_moreValues stops s

theorem later_assignment (target : Token) (s : State) : s.Precedes (assignment target s).state := by
  cases hequals : (s.tick.expect (.punct .equals) .assignment).value with
  | some token =>
    rw [(Prod.mk.inj (assignment_of_some target (by rw [hequals]; rfl))).2]
    exact (((State.Precedes.refl s).tick.expect _ _).trans (later_expression _)).tick
  | none =>
    rw [(Prod.mk.inj (assignment_of_none target hequals)).2]
    exact ((State.Precedes.refl s).tick.expect _ _).tick.tick

theorem later_thenBlock (start : Location) (s : State) :
    s.thenBlock.state.Precedes (conditional start s).state := by
  by_cases helse : s.thenBlock.state.kind = .keyword .elseBranch
  · rw [(Prod.mk.inj (conditional_of_else start helse)).2]
    exact ((later_statements _ _).of_bump.expect _ _).tick
  · rw [(Prod.mk.inj (conditional_of_ne_else start helse)).2]
    exact ((State.Precedes.refl _).expect _ _).tick

theorem later_statement (head : Token) (s : State) : s.Precedes (statement head s).state := by
  rw [statement]
  split
  · exact later_assignment head s
  · rw [(Prod.mk.inj (loop_result head.location s)).2]
    exact ((((later_condition s).expect _ _).trans (later_statements _ _)).expect _ _).tick
  · exact (((later_condition s).expect _ _).trans (later_statements _ _)).trans
      (later_thenBlock head.location s)
  · exact (later_identifiers s).tick
  · exact ((later_expression s).trans (later_moreValues _)).tick

theorem State.Precedes.dropName {s t : State} (h : s.Precedes t) : s.Precedes t.dropName :=
  dropName_rule (P := s.Precedes) h fun _ => h.discard

theorem later_declaration_rules : DeclarationRules Later Later Later Later Later where
  real {s} _ := (State.Precedes.refl s).bump
  integer {s} _ := (State.Precedes.refl s).bump
  no_type {s} _ _ := ((State.Precedes.refl s).fail _).dropName.synchronize _ _
  group names type := (names.expect _ _).trans type
  stop {s} _ := .refl s
  step _ first rest := first.trans rest
  groups first rest := first.trans rest

theorem State.Precedes.filled {s t : State} (h : s.Precedes t) (body : List Statement) :
    s.Precedes (t.filled body) := filled_rule (P := s.Precedes) body h (h.fail .statement)

theorem State.Precedes.ended {s t : State} (h : s.Precedes t) : s.Precedes t.ended :=
  ended_rule (P := s.Precedes) h (h.fail .program)

/-! ## Passing over tokens -/

/-- From `s` to `t` exactly the tokens `u` were consumed, and besides only nodes were completed. -/
structure State.Passes (s : State) (u : List Token) (t : State) : Prop where
  upcoming : s.upcoming = u ++ t.upcoming
  journal : t.journal = (u.map Action.consumed).reverse ++ s.journal
  recovering : t.recovering = (u.isEmpty && s.recovering)

namespace State.Passes

variable {s t r : State} {u v : List Token}

theorem refl (s : State) : s.Passes [] s := ⟨rfl, rfl, rfl⟩

theorem trans (hu : s.Passes u t) (hv : t.Passes v r) : s.Passes (u ++ v) r where
  upcoming := by rw [hu.upcoming, hv.upcoming, List.append_assoc]
  journal := by
    rw [hv.journal, hu.journal, List.map_append, List.reverse_append, List.append_assoc]
  recovering := by
    rw [hv.recovering, hu.recovering]
    cases u <;> cases v <;> rfl

theorem tick (h : s.Passes u t) : s.Passes u t.tick := ⟨h.upcoming, h.journal, h.recovering⟩

theorem of_tick (h : s.tick.Passes u t) : s.Passes u t := ⟨h.upcoming, h.journal, h.recovering⟩

theorem bump (h : s.kind ≠ .endOfFile) : s.Passes [s.current] s.bump :=
  ⟨upcoming_bump h, rfl, rfl⟩

theorem cons (h : s.kind ≠ .endOfFile) (hu : s.bump.Passes u t) : s.Passes (s.current :: u) t :=
  (bump h).trans hu

theorem errors (h : s.Passes u t) : t.errors = s.errors := by
  have hnone : (u.map Action.consumed).filterMap Action.finding? = [] := by
    rw [List.filterMap_eq_nil_iff]
    intro a ha
    obtain ⟨x, -, rfl⟩ := List.mem_map.mp ha
    rfl
  unfold State.errors
  rw [h.journal, List.reverse_append, List.reverse_reverse, List.filterMap_append, hnone,
    List.append_nil]

theorem not_recovering (h : s.Passes u t) (hs : s.recovering = false) : t.recovering = false := by
  rw [h.recovering, hs, Bool.and_false]

theorem not_recovering_of_ne_nil (h : s.Passes u t) (hu : u ≠ []) : t.recovering = false := by
  rw [h.recovering, List.isEmpty_eq_false_iff.mpr hu, Bool.false_and]

theorem upcoming_eq (h : s.Passes u t) {rest : List Token} (hs : s.upcoming = u ++ rest) :
    t.upcoming = rest := List.append_cancel_left (h.upcoming.symm.trans hs)

theorem unique (hu : s.Passes u t) (hv : s.Passes v t) : u = v :=
  List.append_cancel_right (hu.upcoming.symm.trans hv.upcoming)

end State.Passes

theorem passes_expectAny {kinds : List TokenKind} {s : State} {x : Token} {rest : List Token}
    (n : Nonterminal) (hx : x.kind ∈ kinds) (heof : .endOfFile ∉ kinds) (h : s.upcoming = x :: rest) :
    (s.expectAny kinds n).value = some x ∧ s.Passes [x] (s.expectAny kinds n).state := by
  have hkind := State.kind_of_upcoming h
  obtain ⟨hvalue, hstate⟩ := Prod.mk.inj (State.expectAny_of_mem n (hkind ▸ hx : s.kind ∈ kinds))
  rw [hvalue, hstate, ← State.current_of_upcoming h]
  exact ⟨rfl, .bump fun hs => heof (hs ▸ hkind ▸ hx)⟩

end PalChecker.Parser
