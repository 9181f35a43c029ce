import PalChecker.Proofs.Parser.MirroredPrograms
import PalChecker.Proofs.Syntax.Renamed

/-!
# Runs in step

Two runs are in step while whatever the one decides the other decides too. Both then read the same tree,
up to the names and places of its tokens. What keeps two runs in step through each single move keeps them
in step through a whole program.
-/

namespace PalChecker

/-- Consumed inside a program, so neither at its end nor behind it. -/
def TokenKind.IsInner (k : TokenKind) : Prop := k ≠ .endOfFile ∧ k ≠ .keyword .endProgram

instance (k : TokenKind) : Decidable k.IsInner := inferInstanceAs (Decidable (_ ∧ _))

namespace Parser

/-! ## Two runs -/

/-- When two runs are in step, up to a renaming of tokens. A move keeps them in step, or from then on they
go apart, and then they stay so whatever either of them does. -/
structure Lockstep where
  names : Renaming
  InStep : State → State → Prop
  Apart : State → State → Prop
  current_eq {s s' : State} : InStep s s' → s'.current = names.token s.current
  issued_eq {s s' : State} : InStep s s' → s'.issued = s.issued
  atDeclaration_iff {s s' : State} : InStep s s' → (AtDeclaration s' ↔ AtDeclaration s)
  tick {s s' : State} : InStep s s' → InStep s.tick s'.tick
  fail {s s' : State} (n : Nonterminal) : InStep s s' → InStep (s.fail n) (s'.fail n)
  bump {s s' : State} : InStep s s' → s.kind.IsInner → InStep s.bump s'.bump ∨ Apart s.bump s'.bump
  discard {s s' : State} : InStep s s' → s.kind.IsInner →
    InStep s.discard s'.discard ∨ Apart s.discard s'.discard
  synchronize {s s' : State} (n : Nonterminal) (extra : List TokenKind) : InStep s s' →
    InStep (s.synchronize n extra) (s'.synchronize n extra) ∨
      Apart (s.synchronize n extra) (s'.synchronize n extra)
  later {s s' t t' : State} : Apart s s' → s.Precedes t → s'.Precedes t' → Apart t t'

namespace Lockstep

variable {L : Lockstep} {s s' t t' u u' : State}

theorem kind_eq (h : L.InStep s s') : s'.kind = s.kind :=
  (congrArg Token.kind (L.current_eq h)).trans (L.names.kind_token _)

theorem location_eq (h : L.InStep s s') : s'.location = L.names.place s.location :=
  (congrArg Token.location (L.current_eq h)).trans (L.names.location_token _)

theorem place_eq (h : L.InStep s s') : s'.current.location = L.names.place s.location := location_eq h

theorem stamp_eq (h : L.InStep s s') (start : Location) :
    s'.stamp (L.names.place start) = (s.stamp start).renamed L.names := by
  unfold State.stamp Stamp.renamed
  rw [State.nextSeq_congr (L.issued_eq h)]

/-- How two readings stand to each other: their results correspond and they are in step, or they went
apart. -/
def Agree {α : Type} (L : Lockstep) (f : α → α) (p p' : α × State) : Prop :=
  p'.1 = f p.1 ∧ L.InStep p.2 p'.2 ∨ L.Apart p.2 p'.2

namespace Agree

variable {α β γ : Type} {f : α → α} {g : β → β} {a a' : α} {b b' : β} {q q' : β × State}

theorem pure (h : L.InStep t t') (ha : a' = f a) : L.Agree f (a, t) (a', t') := .inl ⟨ha, h⟩

theorem andThen (h : L.Agree f (a, t) (a', t')) (hlater : t.Precedes q.2) (hlater' : t'.Precedes q'.2)
    (hnext : a' = f a → L.InStep t t' → L.Agree g q q') : L.Agree g q q' :=
  h.elim (fun h => hnext h.1 h.2) fun h => .inr (L.later h hlater hlater')

theorem both (h : L.Agree f (a, t) (a', t')) (hlater : t.Precedes u) (hlater' : t'.Precedes u')
    (hnext : L.InStep t t' → L.Agree g (b, u) (b', u')) :
    L.Agree (Prod.map f g) ((a, b), u) ((a', b'), u') := by
  refine h.andThen hlater hlater' fun ha ht => (hnext ht).imp (fun hb => ⟨?_, hb.2⟩) id
  exact Prod.ext ha hb.1

theorem imp (h : L.Agree f (a, t) (a', t')) (hvalue : a' = f a → b' = g b) :
    L.Agree g (b, t) (b', t') :=
  Or.imp_left (fun h => ⟨hvalue h.1, h.2⟩) h

theorem node (h : L.Agree f (a, t) (a', t')) (hvalue : a' = f a → L.InStep t t' → b' = g b) :
    L.Agree g (b, t.tick) (b', t'.tick) :=
  h.andThen (State.Precedes.refl t).tick (State.Precedes.refl t').tick fun ha ht =>
    .pure (L.tick ht) (hvalue ha ht)

end Agree

/-! ## Consuming and dropping -/

/-- They stay in step, or part. -/
abbrev Follow (L : Lockstep) (s s' : State) : Prop := L.Agree id ((), s) ((), s')

theorem follow_of {s s' : State} (h : L.InStep s s' ∨ L.Apart s s') : L.Follow s s' :=
  h.imp_left fun h => ⟨rfl, h⟩

theorem follow_bump (hs : L.InStep s s') (h : s.kind.IsInner) : L.Follow s.bump s'.bump :=
  follow_of (L.bump hs h)

theorem follow_synchronize (hs : L.InStep s s') (n : Nonterminal) (extra : List TokenKind) :
    L.Follow (s.synchronize n extra) (s'.synchronize n extra) := follow_of (L.synchronize n extra hs)

theorem follow_recovered (hs : L.InStep s s') (n : Nonterminal) (kinds : List TokenKind) :
    L.Follow (s.recovered n kinds) (s'.recovered n kinds) := follow_synchronize (L.fail n hs) n kinds

section

variable (kinds : List TokenKind)

theorem agree_eatAny (hs : L.InStep s s')
    (hbump : ∀ {t t' : State}, L.InStep t t' → t.kind ∈ kinds → L.Follow t.bump t'.bump) :
    L.Agree (Option.map L.names.token) (s.eatAny kinds).result (s'.eatAny kinds).result := by
  by_cases h : s.kind ∈ kinds
  · rw [State.eatAny_of_mem h, State.eatAny_of_mem (kind_eq hs ▸ h)]
    exact (hbump hs h).imp fun _ => congrArg some (L.current_eq hs)
  · rw [State.eatAny_of_not_mem h, State.eatAny_of_not_mem (kind_eq hs ▸ h)]
    exact .pure hs rfl

theorem agree_expectAny_of_bump (hs : L.InStep s s') (n : Nonterminal)
    (hbump : ∀ {t t' : State}, L.InStep t t' → t.kind ∈ kinds → L.Follow t.bump t'.bump) :
    L.Agree (Option.map L.names.token) (s.expectAny kinds n).result
      (s'.expectAny kinds n).result := by
  by_cases h : s.kind ∈ kinds
  · rw [State.expectAny_of_mem n h, State.expectAny_of_mem n (kind_eq hs ▸ h)]
    exact (hbump hs h).imp fun _ => congrArg some (L.current_eq hs)
  · rw [State.expectAny_of_not_mem n h, State.expectAny_of_not_mem n (kind_eq hs ▸ h)]
    exact (follow_recovered hs n kinds).andThen ((State.Precedes.refl _).eatAny kinds)
      ((State.Precedes.refl _).eatAny kinds) fun _ hs' => agree_eatAny kinds hs' hbump

end

theorem agree_expectAny (hs : L.InStep s s') (kinds : List TokenKind) (n : Nonterminal)
    (hkinds : ∀ k ∈ kinds, k.IsInner) :
    L.Agree (Option.map L.names.token) (s.expectAny kinds n).result
      (s'.expectAny kinds n).result :=
  agree_expectAny_of_bump kinds hs n fun ht h => follow_bump ht (hkinds _ h)

theorem agree_expect (hs : L.InStep s s') (k : TokenKind) (n : Nonterminal) (hk : k.IsInner) :
    L.Agree (Option.map L.names.token) (s.expect k n).result (s'.expect k n).result :=
  agree_expectAny hs [k] n (List.forall_mem_singleton.mpr hk)

theorem Agree.closed {α : Type} {f : α → α} {a a' : α} (h : L.Agree f (a, t) (a', t')) (k : TokenKind)
    (n : Nonterminal) (hk : k.IsInner) :
    L.Agree f (a, (t.expect k n).state) (a', (t'.expect k n).state) := by
  refine h.andThen ((State.Precedes.refl t).expect k n) ((State.Precedes.refl t').expect k n) ?_
  intro ha ht
  exact (agree_expect ht k n hk).imp fun _ => ha

end Lockstep

/-! ## Expressions -/

open Lockstep

section

variable (L : Lockstep)

/-- Reading the same from both sides keeps two runs in step. -/
abbrev KeepsStep {α : Type} (f : α → α) (read : (s : State) → Parsed α s) : Reading α := fun s a t =>
  s.Precedes t ∧ ∀ s', L.InStep s s' → L.Agree f (a, t) (read s').result

abbrev ExtendsInStep (extend : Expr → (s : State) → Parsed Expr s) (left : Expr) : Reading Expr :=
  KeepsStep L (Expr.renamed L.names) (extend (left.renamed L.names))

end

variable {L : Lockstep}

theorem precedes_resumed {s : State} (h : s.kind ∉ TokenKind.operandStart) :
    s.resumed.Precedes (primary s).state := by
  by_cases hresumed : s.resumed.kind ∈ TokenKind.factorStart
  · rw [(Prod.mk.inj (primary_of_resumed h hresumed)).2]
    exact later_expression_rules.run.2.2.2.2.1 _
  · rw [(Prod.mk.inj (primary_of_not_resumed h hresumed)).2]
    exact (State.Precedes.refl _).tick

theorem agree_operation {s s' t u : State} {left right e : Expr} {op : BinaryOp}
    {operand : (s : State) → Parsed Expr s} {extend : Expr → (s : State) → Parsed Expr s}
    (hs : L.InStep s s') (hop : s.kind.IsInner)
    (hright : KeepsStep L (Expr.renamed L.names) operand s.bump right t)
    (hrest : ExtendsInStep L extend (.binary (t.stamp s.location) left op right) t.tick e u)
    (hlater : ∀ s : State, s.Precedes (operand s).state)
    (hmore : ∀ (left : Expr) (s : State), s.Precedes (extend left s).state) :
    L.Agree (Expr.renamed L.names) (e, u)
      (extend (.binary ((operand s'.bump).state.stamp s'.location) (left.renamed L.names) op
          (operand s'.bump).value)
        (operand s'.bump).state.tick).result := by
  refine (follow_bump hs hop).andThen (hright.1.trans hrest.1) ((hlater _).tick.trans (hmore _ _)) ?_
  intro _ hs'
  refine (hright.2 _ hs').andThen hrest.1 ((State.Precedes.refl _).tick.trans (hmore _ _)) ?_
  intro hvalue ht
  -- The operator stands at one place in both runs, so they complete the same node.
  have hnext := hrest.2 _ (L.tick ht)
  rwa [Expr.renamed, ← stamp_eq ht, ← location_eq hs, ← hvalue] at hnext

theorem inStep_expression_rules :
    ExpressionRules (KeepsStep L (Expr.renamed L.names) expression)
      (KeepsStep L (Expr.renamed L.names) term) (KeepsStep L (Expr.renamed L.names) factor)
      (KeepsStep L (Expr.renamed L.names) primary) (ExtendsInStep L sums)
      (ExtendsInStep L products) where
  sum first rest := by
    refine ⟨first.1.trans rest.1, fun s' hs => ?_⟩
    rw [expression_result]
    refine (first.2 s' hs).andThen rest.1 (later_expression_rules.run.2.1 _ _) fun hfirst ht => ?_
    rw [hfirst]
    exact rest.2 _ ht
  sums_stop h := by
    refine ⟨.refl _, fun s' hs => ?_⟩
    rw [sums_of_not_additive _ (kind_eq hs ▸ h)]
    exact .pure hs rfl
  sums_step h right rest := by
    refine ⟨right.1.of_bump.trans rest.1, fun s' hs => ?_⟩
    rw [sums_of_additive _ (kind_eq hs ▸ h)]
    have hop : TokenKind.IsInner _ := (by decide : ∀ k ∈ _, TokenKind.IsInner k) _ (mem_of_additive h)
    exact agree_operation hs hop right rest later_expression_rules.run.2.2.1 later_expression_rules.run.2.1
  product first rest := by
    refine ⟨first.1.trans rest.1, fun s' hs => ?_⟩
    rw [term_result]
    refine (first.2 s' hs).andThen rest.1 (later_expression_rules.run.2.2.2.1 _ _) fun hfirst ht => ?_
    rw [hfirst]
    exact rest.2 _ ht
  products_stop h := by
    refine ⟨.refl _, fun s' hs => ?_⟩
    rw [products_of_not_multiplicative _ (kind_eq hs ▸ h)]
    exact .pure hs rfl
  products_step h right rest := by
    refine ⟨right.1.of_bump.trans rest.1, fun s' hs => ?_⟩
    rw [products_of_multiplicative _ (kind_eq hs ▸ h)]
    have hop : TokenKind.IsInner _ := (by decide : ∀ k ∈ _, TokenKind.IsInner k) _ (mem_of_multiplicative h)
    exact agree_operation hs hop right rest later_expression_rules.run.2.2.2.2.1
      later_expression_rules.run.2.2.2.1
  signed h operand := by
    refine ⟨operand.1.of_bump.tick, fun s' hs => ?_⟩
    have hsign : TokenKind.IsInner _ := (by decide : ∀ k ∈ _, TokenKind.IsInner k) _ (mem_of_sign h)
    rw [factor_of_sign (kind_eq hs ▸ h), signed_result]
    refine (follow_bump hs hsign).andThen operand.1.tick (later_expression_rules.run.2.2.2.2.2 _).tick ?_
    intro _ hs'
    refine (operand.2 _ hs').node fun hvalue ht => ?_
    rw [hvalue, location_eq hs, stamp_eq ht]
    rfl
  unsigned h operand := by
    refine ⟨operand.1, fun s' hs => ?_⟩
    rw [factor_of_not_sign (kind_eq hs ▸ h)]
    exact operand.2 s' hs
  value {s} h := by
    refine ⟨(State.Precedes.refl _).bump.tick, fun s' hs => ?_⟩
    have hstart : s.kind ∈ TokenKind.operandStart := TokenKind.mem_operandStart_iff.mpr (.inl h)
    have hinner := (by decide : ∀ k ∈ TokenKind.operandStart, k.IsInner) _ hstart
    have hparen : s'.current.kind ≠ .punct .lparen := by
      rintro hparen
      rw [show s.kind = .punct .lparen from (kind_eq hs).symm.trans hparen] at h
      exact absurd h (by decide)
    rw [primary_of_operandStart (kind_eq hs ▸ hstart), operand_of_ne_lparen _ _ hparen]
    refine (follow_bump hs hinner).node fun _ hs' => ?_
    rw [place_eq hs, stamp_eq hs', L.current_eq hs]
    rfl
  group {s t e} h inner := by
    intro close
    refine ⟨(inner.1.of_bump.expect _ _).tick, fun s' hs => ?_⟩
    have hstart : s.kind ∈ TokenKind.operandStart := by
      rw [h]
      decide
    have hparen : s'.current.kind = .punct .lparen := (kind_eq hs).trans h
    rw [primary_of_operandStart (kind_eq hs ▸ hstart), operand_of_lparen _ _ hparen]
    refine (follow_bump hs (by rw [h]; decide)).andThen (inner.1.expect _ _).tick
      ((later_expression _).expect _ _).tick fun _ hs' => ?_
    refine ((inner.2 _ hs').closed (.punct .rparen) .factor (by decide)).node fun hvalue ht => ?_
    rw [hvalue, place_eq hs, stamp_eq ht]
    rfl
  retry h hresumed factor := by
    refine ⟨((State.Precedes.refl _).recovered _ _).trans factor.1, fun s' hs => ?_⟩
    have h' := kind_eq hs ▸ h
    refine (follow_recovered hs .factor []).andThen factor.1 (precedes_resumed h') fun _ hs' => ?_
    rw [primary_of_resumed h' (kind_eq hs' ▸ hresumed)]
    exact factor.2 _ hs'
  error h hresumed := by
    refine ⟨((State.Precedes.refl _).recovered _ _).tick, fun s' hs => ?_⟩
    have h' := kind_eq hs ▸ h
    refine (follow_recovered hs .factor []).andThen (State.Precedes.refl _).tick (precedes_resumed h') ?_
    intro _ hs'
    rw [primary_of_not_resumed h' (kind_eq hs' ▸ hresumed)]
    refine .pure (L.tick hs') ?_
    rw [location_eq hs, stamp_eq hs']
    rfl

theorem inStep_expression (s : State) :
    KeepsStep L (Expr.renamed L.names) expression s (expression s).value (expression s).state :=
  inStep_expression_rules.run.1 s

/-! ## Names, values and tests -/

theorem later_name (s : State) :
    (s.expect .identifier .identList).state.Precedes (identifier s).state := by
  cases h : (s.expect .identifier .identList).value with
  | some token =>
    rw [(Prod.mk.inj (identifier_of_some h)).2]
    exact (State.Precedes.refl _).tick
  | none =>
    rw [(Prod.mk.inj (identifier_of_none h)).2]
    exact .refl _

theorem map_toList_append {α β : Type} (f : α → β) (o : Option α) (rest : List α) :
    (o.map f).toList ++ rest.map f = (o.toList ++ rest).map f := by
  rw [List.map_append, Option.toList_map]

theorem inStep_part_rules :
    PartRules (KeepsStep L (Expr.renamed L.names) expression)
      (KeepsStep L (Condition.renamed L.names) condition)
      (KeepsStep L (Option.map (Ident.renamed L.names)) identifier)
      (KeepsStep L (List.map (Ident.renamed L.names)) moreIdentifiers)
      (KeepsStep L (List.map (Ident.renamed L.names)) identifiers)
      (KeepsStep L (List.map (Expr.renamed L.names)) moreValues) where
  test {s t u left right} hleft := by
    intro op hright
    refine ⟨((hleft.1.expectAny _ _).trans hright.1).tick, fun s' hs => ?_⟩
    rw [condition_result]
    have hop := (hleft.2 s' hs).both ((State.Precedes.refl _).expectAny _ _)
      ((State.Precedes.refl _).expectAny _ _) fun ht =>
        agree_expectAny ht TokenKind.relationalOperator .booleanExpr (by decide)
    refine (hop.both hright.1 (later_expression _) fun hu => hright.2 _ hu).node fun hvalues hu => ?_
    obtain ⟨hpair, hr⟩ := Prod.mk.inj hvalues
    obtain ⟨hl, ho⟩ := Prod.mk.inj hpair
    rw [hl, ho, hr, location_eq hs, stamp_eq hu]
    simp only [Option.bind_map, Function.comp_def, L.names.kind_token, Condition.renamed]
    rfl
  name {s token} := by
    intro name hname
    refine ⟨((State.Precedes.refl s).expect _ _).tick, fun s' hs => ?_⟩
    refine (agree_expect hs .identifier .identList (by decide)).andThen (State.Precedes.refl _).tick
      (later_name s') fun hvalue ht => ?_
    rw [hname] at hvalue
    rw [identifier_of_some hvalue]
    refine .pure (L.tick ht) (congrArg some ?_)
    rw [L.names.location_token, stamp_eq ht]
    rfl
  no_name {s} := by
    intro name hname
    refine ⟨(State.Precedes.refl s).expect _ _, fun s' hs => ?_⟩
    refine (agree_expect hs .identifier .identList (by decide)).andThen (.refl _) (later_name s') ?_
    intro hvalue ht
    rw [hname] at hvalue
    rw [identifier_of_none hvalue]
    exact .pure ht rfl
  names_stop h := by
    refine ⟨.refl _, fun s' hs => ?_⟩
    rw [moreIdentifiers_of_ne_comma (kind_eq hs ▸ h)]
    exact .pure hs rfl
  names_step h first rest := by
    refine ⟨first.1.of_bump.trans rest.1, fun s' hs => ?_⟩
    rw [moreIdentifiers_of_comma ((kind_eq hs).trans h)]
    have hmore (s : State) := later_part_rules.run_moreNames s
    refine (follow_bump hs (by rw [h]; decide)).andThen (first.1.trans rest.1)
      ((later_part_rules.run_name _).trans (hmore _)) fun _ hs' => ?_
    refine ((first.2 _ hs').both rest.1 (hmore _) (rest.2 _)).imp fun hvalues => ?_
    obtain ⟨hfirst, hrest⟩ := Prod.mk.inj hvalues
    rw [hfirst, hrest, map_toList_append]
  names first rest := by
    refine ⟨first.1.trans rest.1, fun s' hs => ?_⟩
    rw [identifiers_result]
    refine ((first.2 _ hs).both rest.1 (later_part_rules.run_moreNames _) (rest.2 _)).imp fun hvalues => ?_
    obtain ⟨hfirst, hrest⟩ := Prod.mk.inj hvalues
    rw [hfirst, hrest, map_toList_append]
  values_stop h := by
    refine ⟨.refl _, fun s' hs => ?_⟩
    rw [moreValues_of_ne_comma (kind_eq hs ▸ h)]
    exact .pure hs rfl
  values_step h first rest := by
    refine ⟨first.1.of_bump.trans rest.1, fun s' hs => ?_⟩
    rw [moreValues_of_comma ((kind_eq hs).trans h)]
    refine (follow_bump hs (by rw [h]; decide)).andThen (first.1.trans rest.1)
      ((later_expression _).trans (later_moreValues _)) fun _ hs' => ?_
    refine ((first.2 _ hs').both rest.1 (later_moreValues _) (rest.2 _)).imp fun hvalues => ?_
    obtain ⟨hfirst, hrest⟩ := Prod.mk.inj hvalues
    rw [hfirst, hrest, List.map_cons]

theorem inStep_condition (s : State) :
    KeepsStep L (Condition.renamed L.names) condition s (condition s).value (condition s).state :=
  inStep_part_rules.run_test inStep_expression s

theorem inStep_identifiers (s : State) :
    KeepsStep L (List.map (Ident.renamed L.names)) identifiers s (identifiers s).value
      (identifiers s).state := inStep_part_rules.run_names s

theorem inStep_moreValues (s : State) :
    KeepsStep L (List.map (Expr.renamed L.names)) moreValues s (moreValues s).value
      (moreValues s).state := inStep_part_rules.run_moreValues inStep_expression s

/-! ## Statements -/

section

variable (L)

/-- The statement that the current token begins. -/
abbrev KeepsStepThere : Reading Statement := fun s st t =>
  s.Precedes t ∧ ∀ s', L.InStep s s' →
    L.Agree (Statement.renamed L.names) (st, t) (statement s'.current s'.bump).result

/-- A block that ends before the end of the program. -/
abbrev KeepsStepWithin (stops : List TokenKind) : Reading (List Statement) := fun s body t =>
  s.Precedes t ∧ (.keyword .endProgram ∈ stops → ∀ s', L.InStep s s' →
    L.Agree (Statement.allRenamed L.names) (body, t) (statements stops s').result)

end

theorem later_equals (target : Token) (s : State) :
    (s.tick.expect (.punct .equals) .assignment).state.Precedes (assignment target s).state := by
  cases hequals : (s.tick.expect (.punct .equals) .assignment).value with
  | some token =>
    rw [(Prod.mk.inj (assignment_of_some target (by rw [hequals]; rfl))).2]
    exact (later_expression _).tick
  | none =>
    rw [(Prod.mk.inj (assignment_of_none target hequals)).2]
    exact (State.Precedes.refl _).tick.tick

theorem follow_stepped {s s' : State} (hs : L.InStep s s') (h : s.kind.IsInner) :
    L.Follow s.stepped s'.stepped := by
  have hkind : (s.fail .statement).kind.IsInner := by rwa [State.kind_fail]
  exact (follow_of (L.discard (L.fail .statement hs) hkind)).andThen
    ((State.Precedes.refl _).synchronize _ _) ((State.Precedes.refl _).synchronize _ _)
    fun _ hs' => follow_synchronize hs' .statement []

theorem agree_guarded {s s' t u : State} {test : Condition} {body : List Statement}
    {opening : TokenKind} {n : Nonterminal} (hs : L.InStep s s')
    (htest : KeepsStep L (Condition.renamed L.names) condition s test t)
    (hbody : KeepsStepWithin L TokenKind.blockEnd (t.expect opening n).state body u)
    (hopening : opening.IsInner) :
    let block := statements TokenKind.blockEnd ((condition s').state.expect opening n).state
    L.Agree (Prod.map (Condition.renamed L.names) (Statement.allRenamed L.names)) ((test, body), u)
      (((condition s').value, block.value), block.state) :=
  ((htest.2 _ hs).closed opening n hopening).both hbody.1 (later_statements _ _)
    (hbody.2 (by decide) _)

theorem inStep_statement_rules :
    StatementRules (KeepsStep L (Expr.renamed L.names) expression)
      (KeepsStep L (Condition.renamed L.names) condition)
      (KeepsStep L (List.map (Ident.renamed L.names)) identifiers)
      (KeepsStep L (List.map (Expr.renamed L.names)) moreValues) (KeepsStepThere L)
      (KeepsStepWithin L) where
  assignment {s t value} h := by
    -- Both runs take the branch of the token they share, and the next part starts where both stand.
    intro equals hequals hvalue
    have hlater : s.bump.Precedes t.tick := (((State.Precedes.refl s.bump).tick.expect _ _).trans hvalue.1).tick
    refine ⟨hlater.of_bump, fun s' hs => ?_⟩
    refine (follow_bump hs (by rw [h]; decide)).andThen hlater (later_statement _ _) fun _ hs' => ?_
    rw [statement_of_identifier s'.current _ ((kind_eq hs).trans h)]
    refine (agree_expect (L.tick hs') (.punct .equals) .assignment (by decide)).andThen hvalue.1.tick
      (later_equals _ _) fun hfound ht => ?_
    have hsome : (s'.bump.tick.expect (.punct .equals) .assignment).value.isSome := by
      rw [hfound, Option.isSome_map]
      exact hequals
    rw [assignment_of_some _ hsome]
    refine (hvalue.2 _ ht).node fun hvalue hu => ?_
    rw [hvalue, place_eq hs, stamp_eq hu, stamp_eq hs',
      L.current_eq hs]
    rfl
  target {s} h := by
    intro equals hequals
    have hlater : s.bump.Precedes equals.state.tick.tick :=
      ((State.Precedes.refl s.bump).tick.expect _ _).tick.tick
    refine ⟨hlater.of_bump, fun s' hs => ?_⟩
    refine (follow_bump hs (by rw [h]; decide)).andThen hlater (later_statement _ _) fun _ hs' => ?_
    rw [statement_of_identifier s'.current _ ((kind_eq hs).trans h)]
    refine (agree_expect (L.tick hs') (.punct .equals) .assignment (by decide)).andThen
      (State.Precedes.refl _).tick.tick (later_equals _ _) fun hfound ht => ?_
    rw [show (s.bump.tick.expect (.punct .equals) .assignment).value = none from hequals] at hfound
    rw [assignment_of_none _ hfound]
    refine .pure (L.tick (L.tick ht)) ?_
    rw [place_eq hs, stamp_eq ht, stamp_eq (L.tick ht), stamp_eq hs',
      L.current_eq hs]
    rfl
  loop {s t u test body} h htest hbody := by
    intro close
    have hlater : s.bump.Precedes close.tick := (((htest.1.expect _ _).trans hbody.1).expect _ _).tick
    refine ⟨hlater.of_bump, fun s' hs => ?_⟩
    refine (follow_bump hs (by rw [h]; decide)).andThen hlater (later_statement _ _) fun _ hs' => ?_
    rw [statement_of_until s'.current _ ((kind_eq hs).trans h), loop_result]
    have hguarded := agree_guarded hs' htest hbody (by decide)
    refine (hguarded.closed (.keyword .endLoop) .loop (by decide)).node fun hvalues hv => ?_
    obtain ⟨htest', hbody'⟩ := Prod.mk.inj hvalues
    rw [htest', hbody', place_eq hs, stamp_eq hv]
    rfl
  conditional {s t u test whenTrue} h htest hblock helse := by
    intro close
    have hlater : s.bump.Precedes close.tick := (((htest.1.expect _ _).trans hblock.1).expect _ _).tick
    refine ⟨hlater.of_bump, fun s' hs => ?_⟩
    refine (follow_bump hs (by rw [h]; decide)).andThen hlater (later_statement _ _) fun _ hs' => ?_
    rw [statement_of_if s'.current _ ((kind_eq hs).trans h)]
    refine (agree_guarded hs' htest hblock (by decide)).andThen ((State.Precedes.refl _).expect _ _).tick
      (later_thenBlock _ _) fun hvalues hu => ?_
    rw [conditional_of_ne_else _ (kind_eq hu ▸ helse)]
    refine (agree_expect hu (.keyword .endIf) .conditional (by decide)).node fun _ hv => ?_
    obtain ⟨htest', hblock'⟩ := Prod.mk.inj hvalues
    rw [htest', hblock', place_eq hs, stamp_eq hv]
    rfl
  alternative {s t u v test whenTrue otherwise} h htest hblock helse hotherwise := by
    intro close
    have hrest : u.Precedes close.tick := (hotherwise.1.of_bump.expect _ _).tick
    have hlater : s.bump.Precedes close.tick := ((htest.1.expect _ _).trans hblock.1).trans hrest
    refine ⟨hlater.of_bump, fun s' hs => ?_⟩
    refine (follow_bump hs (by rw [h]; decide)).andThen hlater (later_statement _ _) fun _ hs' => ?_
    rw [statement_of_if s'.current _ ((kind_eq hs).trans h)]
    refine (agree_guarded hs' htest hblock (by decide)).andThen hrest (later_thenBlock _ _) ?_
    intro hvalues hu
    rw [conditional_of_else _ ((kind_eq hu).trans helse)]
    refine (follow_bump hu (by rw [helse]; decide)).andThen (hotherwise.1.expect _ _).tick
      ((later_statements _ _).expect _ _).tick fun _ hu' => ?_
    have hblock := hotherwise.2 (by decide) _ hu'
    refine (hblock.closed (.keyword .endIf) .conditional (by decide)).node fun hotherwise' hv => ?_
    obtain ⟨htest', hblock'⟩ := Prod.mk.inj hvalues
    rw [htest', hblock', hotherwise', place_eq hs, stamp_eq hv]
    rfl
  input h htargets := by
    refine ⟨htargets.1.of_bump.tick, fun s' hs => ?_⟩
    refine (follow_bump hs (by rw [h]; decide)).andThen htargets.1.tick (later_statement _ _) ?_
    intro _ hs'
    rw [statement_of_input s'.current _ ((kind_eq hs).trans h), input_result]
    refine (htargets.2 _ hs').node fun hvalue ht => ?_
    rw [hvalue, place_eq hs, stamp_eq ht]
    rfl
  output h hfirst hrest := by
    refine ⟨(hfirst.1.of_bump.trans hrest.1).tick, fun s' hs => ?_⟩
    refine (follow_bump hs (by rw [h]; decide)).andThen (hfirst.1.trans hrest.1).tick (later_statement _ _) ?_
    intro _ hs'
    rw [statement_of_output s'.current _ ((kind_eq hs).trans h), output_result]
    refine ((hfirst.2 _ hs').both hrest.1 (later_moreValues _) (hrest.2 _)).node fun hvalues ht => ?_
    obtain ⟨hfirst', hrest'⟩ := Prod.mk.inj hvalues
    rw [hfirst', hrest', place_eq hs, stamp_eq ht]
    rfl
  stop h := by
    refine ⟨.refl _, fun _ s' hs => ?_⟩
    rw [statements_of_stop (kind_eq hs ▸ h)]
    exact .pure hs rfl
  step {stops s t u first rest} h hstart hfirst hrest := by
    refine ⟨hfirst.1.trans hrest.1, fun hstops s' hs => ?_⟩
    rw [statements_of_start (kind_eq hs ▸ h) (kind_eq hs ▸ hstart)]
    refine ((hfirst.2 _ hs).both hrest.1 (later_statements _ _) (hrest.2 hstops _)).imp fun hvalues => ?_
    obtain ⟨hfirst', hrest'⟩ := Prod.mk.inj hvalues
    rw [hfirst', hrest']
    rfl
  skip {stops s t rest} h hstart hrest := by
    -- What is dropped lies inside of the program, so both runs drop it.
    have hlater : s.Precedes s.stepped := ((State.Precedes.refl s).fail _).discard.synchronize _ _
    refine ⟨hlater.trans hrest.1, fun hstops s' hs => ?_⟩
    have hinner : s.kind.IsInner := by
      refine ⟨(not_or.mp h).1, fun hend => (not_or.mp h).2 ?_⟩
      rwa [hend]
    rw [statements_of_not_start (kind_eq hs ▸ h) (kind_eq hs ▸ hstart)]
    exact (follow_stepped hs hinner).andThen hrest.1 (later_statements _ _) fun _ hs' => hrest.2 hstops _ hs'

theorem inStep_statements (stops : List TokenKind) (s : State) :
    KeepsStepWithin L stops s (statements stops s).value (statements stops s).state :=
  inStep_statement_rules.run inStep_expression inStep_condition inStep_identifiers inStep_moreValues
    stops s

/-! ## Declarations -/

theorem follow_untyped {s s' : State} (hs : L.InStep s s') : L.Follow s.untyped s'.untyped := by
  have hfail := L.fail .type hs
  have hdrop : L.Follow (s.fail .type).dropName (s'.fail .type).dropName := by
    unfold State.dropName
    by_cases h : (s.fail .type).kind = .identifier
    · rw [if_pos h, if_pos ((kind_eq hfail).trans h)]
      exact follow_of (L.discard hfail (by rw [h]; decide))
    · rw [if_neg h, if_neg (kind_eq hfail ▸ h)]
      exact .pure hfail rfl
  exact hdrop.andThen ((State.Precedes.refl _).synchronize _ _) ((State.Precedes.refl _).synchronize _ _)
    fun _ hs' => follow_synchronize hs' .type []

theorem inStep_declaration_rules :
    DeclarationRules (KeepsStep L (List.map (Ident.renamed L.names)) identifiers)
      (KeepsStep L id declType) (KeepsStep L (Declaration.renamed L.names) declaration)
      (KeepsStep L (List.map (Declaration.renamed L.names)) moreDeclarations)
      (KeepsStep L (List.map (Declaration.renamed L.names)) declarations) where
  real h := by
    refine ⟨(State.Precedes.refl _).bump, fun s' hs => ?_⟩
    rw [declType_of_real ((kind_eq hs).trans h)]
    exact (follow_bump hs (by rw [h]; decide)).imp fun _ => rfl
  integer h := by
    refine ⟨(State.Precedes.refl _).bump, fun s' hs => ?_⟩
    rw [declType_of_integer ((kind_eq hs).trans h)]
    exact (follow_bump hs (by rw [h]; decide)).imp fun _ => rfl
  no_type hreal hinteger := by
    refine ⟨((State.Precedes.refl _).fail _).dropName.synchronize _ _, fun s' hs => ?_⟩
    rw [declType_of_ne (kind_eq hs ▸ hreal) (kind_eq hs ▸ hinteger)]
    exact (follow_untyped hs).imp fun _ => rfl
  group names typed := by
    refine ⟨((names.1.expect _ _).trans typed.1).tick, fun s' hs => ?_⟩
    rw [declaration_result]
    have hnames := (names.2 _ hs).closed (.keyword .as) .varDecls (by decide)
    refine (hnames.both typed.1 (later_declaration_rules.run_type _) (typed.2 _)).node fun hvalues hu => ?_
    obtain ⟨hidents, htype⟩ := Prod.mk.inj hvalues
    rw [hidents, htype, location_eq hs]
    exact congrArg (Declaration.mk · _ _) (stamp_eq hu _)
  stop h := by
    refine ⟨.refl _, fun s' hs => ?_⟩
    rw [moreDeclarations_of_not (mt (L.atDeclaration_iff hs).mp h)]
    exact .pure hs rfl
  step h first rest := by
    refine ⟨first.1.trans rest.1, fun s' hs => ?_⟩
    rw [moreDeclarations_of ((L.atDeclaration_iff hs).mpr h)]
    refine ((first.2 _ hs).both rest.1 (later_declaration_rules.run_moreGroups later_identifiers _)
      (rest.2 _)).imp fun hvalues => ?_
    obtain ⟨hfirst, hrest⟩ := Prod.mk.inj hvalues
    rw [hfirst, hrest]
    rfl
  groups first rest := by
    refine ⟨first.1.trans rest.1, fun s' hs => ?_⟩
    rw [declarations_result]
    refine ((first.2 _ hs).both rest.1 (later_declaration_rules.run_moreGroups later_identifiers _)
      (rest.2 _)).imp fun hvalues => ?_
    obtain ⟨hfirst, hrest⟩ := Prod.mk.inj hvalues
    rw [hfirst, hrest]
    rfl

theorem inStep_declarations (s : State) :
    KeepsStep L (List.map (Declaration.renamed L.names)) declarations s (declarations s).value
      (declarations s).state := inStep_declaration_rules.run inStep_identifiers s

/-! ## Programs -/

/-- The program read from `s`, and the state in which its end is expected. -/
def interiorFrom (s : State) : Program × State :=
  let first := openingFrom s
  let body := statements [.keyword .endProgram] (first.2.expect (.keyword .inBody) .program).state
  ({ name := first.1.1
     declarations := first.1.2
     statements := body.value
     location := s.location },
    body.state.filled body.value)

theorem programFrom_eq_interior (s : State) :
    programFrom s =
      ((interiorFrom s).1, ((interiorFrom s).2.expect (.keyword .endProgram) .program).state.ended) := rfl

theorem agree_opening {s s' : State} (hs : L.InStep s s') :
    L.Agree (Prod.map (Option.map L.names.token) (List.map (Declaration.renamed L.names)))
      (openingFrom s) (openingFrom s') := by
  have hheader (t : State) := (State.Precedes.refl t).expect (.keyword .program) .program
  have hname (t : State) := ((State.Precedes.refl t).expect .identifier .program)
  refine (agree_expect hs (.keyword .program) .program (by decide)).andThen
    (((hname _).expect _ _).trans (inStep_declarations (L := L) _).1)
    (((hname _).expect _ _).trans (inStep_declarations (L := L) _).1) fun _ ht => ?_
  have hnamed := (agree_expect ht .identifier .program (by decide)).closed (.keyword .withDecls) .program
    (by decide)
  exact hnamed.both (inStep_declarations (L := L) _).1 (inStep_declarations (L := L) _).1 fun hu =>
    (inStep_declarations _).2 _ hu

theorem inStep_filled {t t' : State} (ht : L.InStep t t') {body body' : List Statement}
    (hbody : body' = Statement.allRenamed L.names body) :
    L.InStep (t.filled body) (t'.filled body') := by
  subst hbody
  cases body with
  | nil => exact L.fail .statement ht
  | cons first rest => exact ht

theorem agree_interior {s s' : State} (hs : L.InStep s s') :
    L.Agree (Program.renamed L.names) (interiorFrom s) (interiorFrom s') := by
  have hopening := (agree_opening hs).closed (.keyword .inBody) .program (by decide)
  have hbody := hopening.both (later_statements [.keyword .endProgram] _) (later_statements _ _) fun ht =>
    (inStep_statements _ _).2 List.mem_cons_self _ ht
  refine hbody.andThen ((State.Precedes.refl _).filled _) ((State.Precedes.refl _).filled _) ?_
  intro hvalues ht
  have hprogram := congrArg (fun read => Program.mk read.1.1 read.1.2 read.2 s'.location) hvalues
  exact .inl ⟨hprogram.trans (congrArg (Program.mk _ _ _) (location_eq hs)),
    inStep_filled ht (Prod.mk.inj hvalues).2⟩

theorem inStep_ended {t t' : State} (ht : L.InStep t t') : L.InStep t.ended t'.ended := by
  unfold State.ended
  by_cases hend : t.kind = .endOfFile
  · rw [if_pos hend, if_pos ((kind_eq ht).trans hend)]
    exact ht
  · rw [if_neg hend, if_neg (kind_eq ht ▸ hend)]
    exact L.fail .program ht

/-- If they also stay in step through its end, they read the same program. -/
theorem agree_program {s s' : State} (hs : L.InStep s s')
    (hbump : ∀ {t t' : State}, L.InStep t t' → t.kind = .keyword .endProgram →
      L.Follow t.bump t'.bump) :
    L.Agree (Program.renamed L.names) (programFrom s) (programFrom s') := by
  have hlater (t : State) := ((State.Precedes.refl t).expect (.keyword .endProgram) .program).ended
  refine (agree_interior hs).andThen (hlater _) (hlater _) fun hprogram ht => ?_
  refine (agree_expectAny_of_bump [.keyword .endProgram] ht .program fun hu h =>
    hbump hu (List.mem_singleton.mp h)).andThen (State.Precedes.refl _).ended
    (State.Precedes.refl _).ended fun _ hu => ?_
  exact .inl ⟨hprogram, inStep_ended hu⟩

end Parser

end PalChecker
