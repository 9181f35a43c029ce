import PalChecker.Proofs.Parser.Budget

/-!
# What reading an expression costs

Each production of expressions, names and values stays within a few steps besides those that the tokens pay
for. The rules of reading say which steps those are.
-/

namespace PalChecker.Parser

/-! ## Expressions -/

section

variable {α : Type} (b : Int) (p : Production α)

/-- Reading `p` costs at most `b` steps besides those that the tokens pay for. -/
abbrev Costs : Reading α := fun s a t => Within b s.consumed (fun n => p.run n) s a t

/-- It costs less by `c` if a token of `kinds` is there, for that token is consumed first. -/
abbrev CostsLess (kinds : List TokenKind) (c : Int) : Reading α := fun s a t =>
  Within (b - c * s.ready kinds) (s.consumed + s.ready kinds) (fun n => p.run n) s a t

end

section

variable {α : Type} {b c : Int} {p : Production α} {kinds : List TokenKind} {s t : State} {a : α}

theorem CostsLess.of_mem (hs : s.kind ∈ kinds)
    (h : Within (b - c) (s.consumed + 1) (fun n => p.run n) s a t) : CostsLess b p kinds c s a t := by
  have hready : s.ready kinds = 1 := if_pos hs
  unfold CostsLess
  rwa [hready, Int.natCast_one, Int.mul_one]

theorem CostsLess.of_not_mem (hs : s.kind ∉ kinds) (h : Costs b p s a t) : CostsLess b p kinds c s a t := by
  have hready : s.ready kinds = 0 := if_neg hs
  unfold CostsLess
  rwa [hready, Int.natCast_zero, Int.mul_zero, Int.sub_zero]

theorem CostsLess.within (h : CostsLess b p kinds c s a t) (hs : s.kind ∈ kinds) :
    Within (b - c) (s.consumed + 1) (fun n => p.run n) s a t := by
  have hready : s.ready kinds = 1 := if_pos hs
  unfold CostsLess at h
  rwa [hready, Int.natCast_one, Int.mul_one] at h

end

theorem ready_factorStart {s : State} (h : Sign.ofKind? s.kind = none) :
    s.ready TokenKind.factorStart = s.ready TokenKind.operandStart := by
  have hiff : s.kind ∈ TokenKind.factorStart ↔ s.kind ∈ TokenKind.operandStart := by
    rw [mem_factorStart_iff]
    simp [h]
  unfold State.ready
  simp only [hiff]

theorem within_expression_rules :
    ExpressionRules (Costs 6 .expression) (Costs 4 .term) (CostsLess 2 .factor TokenKind.factorStart 13)
      (CostsLess 1 .primary TokenKind.operandStart 13) (fun left => Costs 1 (.sums left))
      (fun left => Costs 1 (.products left)) where
  sum first rest := by
    apply Within.call
    apply Within.bind first
    exact rest.weaken (by decide) (Nat.le_refl _)
  sums_stop h := by
    apply Within.call
    apply Within.get
    simp only [h]
    exact .pure (by decide)
  sums_step {s t _ _ _ _ _} h right rest := by
    have hmoved : t.tick.remaining < s.remaining := Nat.lt_of_le_of_lt right.reaches.remaining_le
      (State.remaining_bump_lt (ne_endOfFile_of_additive h))
    apply Within.call
    apply Within.get
    simp only [h]
    apply (Within.take (ne_endOfFile_of_additive h) (Nat.le_succ _)).bind
    apply Within.bind right
    apply Within.finish.bind
    apply (Within.turned fun _ => hmoved).bind
    exact rest.weaken (by decide) (Nat.le_refl _)
  product first rest := by
    apply Within.call
    apply (first.of_ready (by decide)).bind
    exact rest.weaken (by decide) (Nat.le_refl _)
  products_stop h := by
    apply Within.call
    apply Within.get
    simp only [h]
    exact .pure (by decide)
  products_step {s t _ _ _ _ _} h right rest := by
    have hmoved : t.tick.remaining < s.remaining := Nat.lt_of_le_of_lt right.reaches.remaining_le
      (State.remaining_bump_lt (ne_endOfFile_of_multiplicative h))
    apply Within.call
    apply Within.get
    simp only [h]
    apply (Within.take (ne_endOfFile_of_multiplicative h) (Nat.le_succ _)).bind
    apply (right.of_ready (by decide)).bind
    apply Within.finish.bind
    apply (Within.turned fun _ => hmoved).bind
    exact rest.weaken (by decide) (Nat.le_refl _)
  signed {s _ sign _} h operand := by
    apply CostsLess.of_mem (mem_factorStart_iff.mpr (.inl ⟨sign, h⟩))
    apply Within.call
    apply Within.get
    simp only [h]
    apply (Within.take (ne_endOfFile_of_sign h) (Nat.le_refl _)).bind
    apply (operand.of_ready (by decide)).bind
    exact Within.finish.weaken (by decide) (Nat.le_refl _)
  unsigned h operand := by
    unfold CostsLess
    rw [ready_factorStart h]
    apply Within.call
    apply Within.get
    simp only [h]
    exact operand.weaken (by omega) (Nat.le_refl _)
  value {s} h := by
    have hstart : s.kind ∈ TokenKind.operandStart := TokenKind.mem_operandStart_iff.mpr (.inl h)
    apply CostsLess.of_mem hstart
    apply Within.call
    apply Within.get
    simp only [if_pos h]
    apply (Within.take (ne_endOfFile_of_operandStart hstart) (Nat.le_refl _)).bind
    exact Within.finish.weaken (by decide) (Nat.le_refl _)
  group {s _ _} h inner := by
    have hstart : s.kind ∈ TokenKind.operandStart := TokenKind.mem_operandStart_iff.mpr (.inr h)
    have hvalue : s.kind ∉ TokenKind.value := h ▸ by decide
    apply CostsLess.of_mem hstart
    apply Within.call
    apply Within.get
    simp only [if_neg hvalue, if_pos h]
    have hne := ne_endOfFile_of_operandStart hstart
    apply (Within.take hne (Nat.le_refl _)).bind
    apply (Within.nested (.bump hne)).bind
    apply Within.bind inner
    apply (Within.expected (by decide)).bind
    exact Within.finish.weaken (by decide) (Nat.le_refl _)
  retry {s _ _} h hresumed factor := by
    have hkind := not_or.mp (mt TokenKind.mem_operandStart_iff.mpr h)
    apply CostsLess.of_not_mem h
    apply Within.call
    apply Within.get
    simp only [if_neg hkind.1, if_neg hkind.2]
    apply (Within.modify (.fail .factor s)).bind
    apply Within.synchronize.bind
    apply Within.get
    simp only [if_pos hresumed]
    apply Within.retry hresumed
    -- Where reading resumed a factor begins, so that this one consumes a token first.
    exact (factor.within hresumed).weaken (by decide) (Nat.le_refl _)
  error {s} h hresumed := by
    have hkind := not_or.mp (mt TokenKind.mem_operandStart_iff.mpr h)
    apply CostsLess.of_not_mem h
    apply Within.call
    apply Within.get
    simp only [if_neg hkind.1, if_neg hkind.2]
    apply (Within.modify (.fail .factor s)).bind
    apply Within.synchronize.bind
    apply Within.get
    simp only [if_neg hresumed]
    exact Within.finish.weaken (by decide) (Nat.le_refl _)

/-! ## Names, values and tests -/

theorem within_part_rules :
    PartRules (Costs 6 .expression) (Costs 13 .condition) (CostsLess 1 .identifier [.identifier] 20)
      (Costs 1 .moreIdentifiers) (CostsLess 3 .identifiers [.identifier] 20) (Costs 1 .moreValues) where
  test left right := by
    apply Within.call
    apply Within.get
    apply Within.bind left
    apply ((Within.expectAny (by decide)).of_ready (by decide)).bind
    apply Within.bind right
    exact Within.finish.weaken (by decide) (Nat.le_refl _)
  name h := by
    apply Within.call
    apply (Within.expect (by decide)).bind
    simp only [h]
    exact Within.finish.weaken (by omega) (Nat.le_refl _)
  no_name h := by
    apply Within.call
    apply (Within.expect (by decide)).bind
    simp only [h]
    exact .pure (by omega)
  names_stop h := by
    apply Within.call
    apply Within.get
    simp only [if_neg h]
    exact .pure (by decide)
  names_step {s t _ _ _} h first rest := by
    -- The comma is consumed, which pays for the turn.
    have hne : s.kind ≠ .endOfFile := h ▸ by decide
    have hmoved : t.remaining < s.remaining :=
      Nat.lt_of_le_of_lt first.reaches.remaining_le (State.remaining_bump_lt hne)
    apply Within.call
    apply Within.get
    simp only [if_pos h]
    apply (Within.take hne (Nat.le_succ _)).bind
    apply (first.of_ready (by decide)).bind
    apply (Within.turned fun _ => hmoved).bind
    apply Within.bind rest
    exact .pure (by decide)
  names first rest := by
    apply Within.call
    apply Within.bind first
    apply Within.bind rest
    exact .pure (by omega)
  values_stop h := by
    apply Within.call
    apply Within.get
    simp only [if_neg h]
    exact .pure (by decide)
  values_step {s t _ _ _} h first rest := by
    have hne : s.kind ≠ .endOfFile := h ▸ by decide
    have hmoved : t.remaining < s.remaining :=
      Nat.lt_of_le_of_lt first.reaches.remaining_le (State.remaining_bump_lt hne)
    apply Within.call
    apply Within.get
    simp only [if_pos h]
    apply (Within.take hne (Nat.le_succ _)).bind
    apply Within.bind first
    apply (Within.turned fun _ => hmoved).bind
    apply Within.bind rest
    exact .pure (by decide)

end PalChecker.Parser
