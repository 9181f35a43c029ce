import PalChecker.Proofs.Parser.Steps

/-!
# A budget of steps

A run may take so many steps, and each token that it passes pays for twenty more. What a run does is added up
part by part: its steps, what they have in common, and the tokens between its two states.
-/

namespace PalChecker.Parser

/-! ## The tokens between two states -/

namespace State.Reaches

variable {s t u : State}

theorem refl (s : State) : s.Reaches s := ⟨[], (List.append_nil _).symm, rfl⟩

theorem trans (h : s.Reaches t) (h' : t.Reaches u) : s.Reaches u := by
  obtain ⟨first, hpassed, hahead⟩ := h
  obtain ⟨rest, hpassed', hahead'⟩ := h'
  refine ⟨first ++ rest, ?_, ?_⟩
  · rw [hpassed', hpassed, List.append_assoc]
  · rw [hahead, hahead', List.map_append, List.append_assoc]

theorem bump (h : s.kind ≠ .endOfFile) : s.Reaches s.bump :=
  ⟨[(s.current, .consumed)], s.passed_bump, upcoming_bump h⟩

theorem discard (h : s.kind ≠ .endOfFile) : s.Reaches s.discard :=
  ⟨[(s.current, .dropped)], s.passed_discard, upcoming_bump h⟩

theorem tick (s : State) : s.Reaches s.tick := refl s

theorem fail (n : Nonterminal) (s : State) : s.Reaches (s.fail n) := by
  refine ⟨[], ?_, ?_⟩
  · rw [passed_fail, List.append_nil]
  · rw [upcoming_fail]
    rfl

theorem synchronize (n : Nonterminal) (extra : List TokenKind) (s : State) :
    s.Reaches (s.synchronize n extra) := by
  refine ⟨_, s.passed_synchronize n extra, ?_⟩
  rw [skipped_eq, upcoming_synchronize_eq, List.map_map]
  simp [Function.comp_def]

theorem remaining_le (h : s.Reaches t) : t.remaining ≤ s.remaining := by
  obtain ⟨between, -, hahead⟩ := h
  have hlength := congrArg List.length hahead
  simp only [List.length_append, length_upcoming] at hlength
  omega

theorem consumed_le (h : s.Reaches t) : s.consumed ≤ t.consumed := by
  obtain ⟨between, hpassed, -⟩ := h
  unfold State.consumed State.fates
  rw [hpassed, List.map_append, List.count_append]
  exact Nat.le_add_right _ _

theorem kind_eq (h : s.Reaches t) (hremaining : s.remaining ≤ t.remaining) : t.kind = s.kind := by
  obtain ⟨between, -, hahead⟩ := h
  have hlength := congrArg List.length hahead
  simp only [List.length_append, List.length_map, length_upcoming] at hlength
  obtain rfl : between = [] := List.eq_nil_of_length_eq_zero (by omega)
  obtain ⟨rest, hrest⟩ := t.exists_upcoming
  exact (kind_of_upcoming (hahead.trans hrest)).symm

end State.Reaches

namespace State

theorem consumed_eq (s : State) : s.consumed = s.taken.length := by
  unfold consumed fates taken
  rw [List.length_map, ← List.countP_eq_length_filter, List.count, List.countP_map]
  exact List.countP_congr fun x _ => by simp

theorem consumed_bump (s : State) : s.bump.consumed = s.consumed + 1 := by
  rw [consumed_eq, consumed_eq, taken_bump, List.length_append]
  rfl

theorem consumed_fail (n : Nonterminal) (s : State) : (s.fail n).consumed = s.consumed := by
  rw [consumed_eq, consumed_eq, taken_fail]

theorem consumed_discard (s : State) : s.discard.consumed = s.consumed := by
  rw [consumed_eq, consumed_eq, taken_discard]

theorem consumed_synchronize (n : Nonterminal) (extra : List TokenKind) (s : State) :
    (s.synchronize n extra).consumed = s.consumed := by
  rw [consumed_eq, consumed_eq, taken_synchronize]

end State

namespace State.ConsumesBefore

variable {s t u : State}

theorem bump (h : s.kind ≠ .endOfFile) : s.ConsumesBefore s.bump :=
  ⟨.bump h, Nat.lt_of_lt_of_eq (Nat.lt_succ_self _) s.consumed_bump.symm⟩

theorem trans_reaches (h : s.ConsumesBefore t) (h' : t.Reaches u) : s.ConsumesBefore u :=
  ⟨h.1.trans h', Nat.lt_of_lt_of_le h.2 h'.consumed_le⟩

theorem remaining_lt (h : s.ConsumesBefore t) : t.remaining < s.remaining := by
  obtain ⟨⟨between, hpassed, hahead⟩, hconsumed⟩ := h
  have hlength := congrArg List.length hahead
  simp only [List.length_append, List.length_map, length_upcoming] at hlength
  have hne : between ≠ [] := by
    rintro rfl
    rw [List.append_nil] at hpassed
    unfold State.consumed State.fates at hconsumed
    rw [hpassed] at hconsumed
    exact Nat.lt_irrefl _ hconsumed
  have := List.length_pos_iff.mpr hne
  omega

end State.ConsumesBefore

/-- One if the current token is of these kinds. -/
def State.ready (kinds : List TokenKind) (s : State) : Nat := if s.kind ∈ kinds then 1 else 0

/-! ## What steps have in common -/

def retries (steps : List Step) : List State := steps.filterMap Step.retriedAt?

/-- Between `s` and `t` these steps were taken: `budget` of them, and twenty for each token. After each retry
a token is consumed, and before the first of them so many that there are `low`. -/
structure Accounts (budget : Int) (low : Nat) (s t : State) (steps : List Step) : Prop where
  reaches : s.Reaches t
  cost : steps.length + 20 * t.remaining ≤ 20 * s.remaining + budget
  advances : ∀ x ∈ steps, x.Advances
  apart : (retries steps).Pairwise State.ConsumesBefore
  between : ∀ r ∈ retries steps, s.Reaches r ∧ low ≤ r.consumed ∧ r.ConsumesBefore t
  low_le : low ≤ t.consumed

namespace Accounts

variable {b c : Int} {low low' : Nat} {s t u : State} {steps more : List Step}

theorem of_plain (hreaches : s.Reaches t)
    (hcost : steps.length + 20 * t.remaining ≤ 20 * s.remaining + b)
    (hadvances : ∀ x ∈ steps, x.Advances ∧ x.retriedAt? = none) (hlow : low ≤ t.consumed) :
    Accounts b low s t steps := by
  have hnone : retries steps = [] := List.filterMap_eq_nil_iff.mpr fun x hx => (hadvances x hx).2
  refine ⟨hreaches, hcost, fun x hx => (hadvances x hx).1, ?_, ?_, hlow⟩
  · rw [hnone]
    exact .nil
  · rw [hnone]
    exact fun r hr => absurd hr List.not_mem_nil

theorem append (h : Accounts b low s t steps) (h' : Accounts c t.consumed t u more) :
    Accounts (b + c) low s u (steps ++ more) := by
  have hcost := h.cost
  have hcost' := h'.cost
  have hretries : retries (steps ++ more) = retries steps ++ retries more := List.filterMap_append
  refine ⟨h.reaches.trans h'.reaches, ?_, ?_, ?_, ?_, ?_⟩
  · rw [List.length_append]
    omega
  · exact List.forall_mem_append.mpr ⟨h.advances, h'.advances⟩
  · rw [hretries]
    refine List.pairwise_append.mpr ⟨h.apart, h'.apart, fun r hr r' hr' => ?_⟩
    exact (h.between r hr).2.2.trans_reaches (h'.between r' hr').1
  · rw [hretries, List.forall_mem_append]
    refine ⟨fun r hr => ?_, fun r hr => ?_⟩
    · obtain ⟨hbefore, hlow, hafter⟩ := h.between r hr
      exact ⟨hbefore, hlow, hafter.trans_reaches h'.reaches⟩
    · obtain ⟨hbefore, hlow, hafter⟩ := h'.between r hr
      exact ⟨h.reaches.trans hbefore, Nat.le_trans h.low_le hlow, hafter⟩
  · exact Nat.le_trans h.low_le h'.low_le

theorem weaken (h : Accounts b low s t steps) (hb : b ≤ c) (hlow : low' ≤ low) :
    Accounts c low' s t steps := by
  have hcost := h.cost
  refine ⟨h.reaches, by omega, h.advances, h.apart, fun r hr => ?_, Nat.le_trans hlow h.low_le⟩
  obtain ⟨hbefore, hlow', hafter⟩ := h.between r hr
  exact ⟨hbefore, Nat.le_trans hlow hlow', hafter⟩

theorem retry (h : Accounts b (s.consumed + 1) s t steps) (hs : s.kind ∈ TokenKind.factorStart) :
    Accounts (b + 1) s.consumed s t (.retried s :: steps) := by
  have hcost := h.cost
  refine ⟨h.reaches, ?_, List.forall_mem_cons.mpr ⟨hs, h.advances⟩, ?_, ?_, ?_⟩
  · rw [List.length_cons]
    omega
  · -- The retry comes first, and those that follow were apart already.
    refine List.pairwise_cons.mpr ⟨fun r hr => ?_, h.apart⟩
    exact ⟨(h.between r hr).1, (h.between r hr).2.1⟩
  · refine List.forall_mem_cons.mpr ⟨⟨.refl s, Nat.le_refl _, h.reaches, h.low_le⟩, fun r hr => ?_⟩
    obtain ⟨hbefore, hlow, hafter⟩ := h.between r hr
    exact ⟨hbefore, Nat.le_of_succ_le hlow, hafter⟩
  · exact Nat.le_of_succ_le h.low_le

end Accounts

/-! ## Runs within a budget -/

/-- A run that fuel for its steps is enough for. -/
def Within {α : Type} (budget : Int) (low : Nat) (m : Nat → Stepwise α) : Reading α := fun s a t =>
  ∃ steps, (∀ fuel, steps.length ≤ fuel → m fuel s = some (a, t, steps)) ∧ Accounts budget low s t steps

namespace Within

open Stepwise

variable {α β : Type} {b c : Int} {low low' : Nat} {m : Nat → Stepwise α} {k : Nat → α → Stepwise β}
  {s t u : State} {a : α} {r : β}

theorem reaches (h : Within b low m s a t) : s.Reaches t := by
  obtain ⟨steps, -, haccounts⟩ := h
  exact haccounts.reaches

theorem low_le (h : Within b low m s a t) : low ≤ t.consumed := by
  obtain ⟨steps, -, haccounts⟩ := h
  exact haccounts.low_le

theorem weaken (h : Within b low m s a t) (hb : b ≤ c) (hlow : low' ≤ low) : Within c low' m s a t := by
  obtain ⟨steps, hrun, haccounts⟩ := h
  exact ⟨steps, hrun, haccounts.weaken hb hlow⟩

theorem bind (h : Within b low m s a t) (h' : Within (c - b) t.consumed (fun n => k n a) t r u) :
    Within c low (fun n => m n >>= k n) s r u := by
  obtain ⟨steps, hrun, haccounts⟩ := h
  obtain ⟨more, hrun', haccounts'⟩ := h'
  refine ⟨steps ++ more, fun fuel hfuel => ?_, ?_⟩
  · rw [List.length_append] at hfuel
    exact bind_of_some (hrun fuel (by omega)) (hrun' fuel (by omega))
  · exact (haccounts.append haccounts').weaken (by omega) (Nat.le_refl _)

theorem of_silent (hm : ∀ n, m n s = some (a, t, [])) (hreaches : s.Reaches t)
    (hcost : 20 * t.remaining ≤ 20 * s.remaining + b) (hlow : low ≤ t.consumed) : Within b low m s a t := by
  refine ⟨[], fun n _ => hm n, .of_plain hreaches ?_ (fun x hx => absurd hx List.not_mem_nil) hlow⟩
  rw [List.length_nil]
  omega

theorem pure (hb : 0 ≤ b) : Within b s.consumed (fun _ => Pure.pure a) s a s :=
  of_silent (fun _ => rfl) (.refl s) (by omega) (Nat.le_refl _)

theorem get {k : Nat → State → Stepwise β} (h : Within b low (fun n => k n s) s r u) :
    Within b low (fun n => Stepwise.get >>= k n) s r u := by
  obtain ⟨steps, hrun, haccounts⟩ := h
  have hget : Stepwise.get s = some (s, s, []) := rfl
  exact ⟨steps, fun fuel hfuel => bind_of_some hget (hrun fuel hfuel), haccounts⟩

theorem modify {f : State → State} (hf : s.Reaches (f s)) :
    Within 0 s.consumed (fun _ => Stepwise.modify f) s () (f s) := by
  have := hf.remaining_le
  exact of_silent (fun _ => rfl) hf (by omega) hf.consumed_le

theorem modify_of_lt {f : State → State} (hf : s.Reaches (f s)) (hlt : (f s).remaining < s.remaining) :
    Within (-20) s.consumed (fun _ => Stepwise.modify f) s () (f s) :=
  of_silent (fun _ => rfl) hf (by omega) hf.consumed_le

theorem finish {start : Location} {node : Stamp → α} :
    Within 0 s.consumed (fun _ => Stepwise.finish start node) s (node (s.stamp start)) s.tick :=
  of_silent (fun _ => rfl) (.tick s) (by rw [State.remaining_tick]; omega) (Nat.le_refl _)

/-- A token that is consumed pays for twenty steps. -/
theorem bump (hs : s.kind ≠ .endOfFile) (hlow : low ≤ s.consumed + 1)
    (hm : ∀ n, m n s = some (a, s.bump, [])) : Within (-20) low m s a s.bump := by
  have hpos := State.remaining_pos hs
  have hremaining := s.remaining_bump
  have hconsumed := s.consumed_bump
  exact of_silent hm (.bump hs) (by omega) (by omega)

theorem take (hs : s.kind ≠ .endOfFile) (hlow : low ≤ s.consumed + 1) :
    Within (-20) low (fun _ => Stepwise.take) s s.current s.bump := bump hs hlow fun _ => rfl

theorem note {step : State → Step} (hstep : (step s).Advances) (hretry : (step s).retriedAt? = none) :
    Within 1 s.consumed (fun _ => Stepwise.note step) s () s := by
  refine ⟨[step s], fun _ _ => rfl, .of_plain (.refl s) ?_ ?_ (Nat.le_refl _)⟩
  · rw [List.length_singleton]
    omega
  · exact List.forall_mem_singleton.mpr ⟨hstep, hretry⟩

theorem stated {before : State} (h : before.ConsumesBefore s) :
    Within 1 s.consumed (fun _ => Stepwise.note (.statement before)) s () s := note h rfl

theorem nested {before : State} (h : before.ConsumesBefore s) :
    Within 1 s.consumed (fun _ => Stepwise.note (.nested before)) s () s := note h rfl

theorem turned {l : Loop} {before : State} (hmoved : l.GoesOn s → s.remaining < before.remaining) :
    Within 1 s.consumed (fun _ => Stepwise.note (.turned l before)) s () s := note hmoved rfl

theorem synchronize {n : Nonterminal} {extra : List TokenKind} :
    Within 0 s.consumed (fun _ => Stepwise.synchronize n extra) s () (s.synchronize n extra) := by
  have hreaches := State.Reaches.synchronize n extra s
  have hremaining : _ + (s.synchronize n extra).remaining = s.remaining :=
    s.cursor.remaining_skipUntil (n.syncSet ++ extra)
  refine ⟨_, fun _ _ => rfl, .of_plain hreaches ?_ (fun x hx => ?_) hreaches.consumed_le⟩
  · rw [List.length_map]
    omega
  · obtain ⟨token, -, rfl⟩ := List.mem_map.mp hx
    exact ⟨trivial, rfl⟩

theorem retry {k : Nat → Unit → Stepwise β} (hs : s.kind ∈ TokenKind.factorStart)
    (h : Within (b - 1) (s.consumed + 1) (fun n => k n ()) s r u) :
    Within b s.consumed (fun n => Stepwise.note .retried >>= k n) s r u := by
  obtain ⟨steps, hrun, haccounts⟩ := h
  have hnote : Stepwise.note .retried s = some ((), s, [.retried s]) := rfl
  refine ⟨.retried s :: steps, fun fuel hfuel => ?_, ?_⟩
  · rw [List.length_cons] at hfuel
    exact bind_of_some hnote (hrun fuel (by omega))
  · exact (haccounts.retry hs).weaken (by omega) (Nat.le_refl _)

/-- A call is one step, and what it calls gets less fuel by one. -/
theorem call {p : Production α} (h : Within (b - 1) low (fun n => p.body (Production.run n)) s a t) :
    Within b low (fun n => Production.run n p) s a t := by
  obtain ⟨steps, hrun, haccounts⟩ := h
  have hnote : Stepwise.note (fun _ => Step.called) s = some ((), s, [.called]) := rfl
  refine ⟨.called :: steps, fun fuel hfuel => ?_, ?_⟩
  · rw [List.length_cons] at hfuel
    obtain ⟨n, rfl⟩ : ∃ n, fuel = n + 1 := ⟨fuel - 1, by omega⟩
    exact bind_of_some hnote (hrun n (by omega))
  · have hcost := haccounts.cost
    refine ⟨haccounts.reaches, ?_, List.forall_mem_cons.mpr ⟨trivial, haccounts.advances⟩,
      haccounts.apart, haccounts.between, haccounts.low_le⟩
    rw [List.length_cons]
    omega

/-! ## Expecting a token -/

variable {kinds : List TokenKind} {n : Nonterminal}

theorem eatAny (heof : .endOfFile ∉ kinds) :
    Within (0 - 20 * s.ready kinds) (s.consumed + s.ready kinds) (fun _ => Stepwise.eatAny kinds) s
      (s.eatAny kinds).value (s.eatAny kinds).state := by
  by_cases hs : s.kind ∈ kinds
  · obtain ⟨hvalue, hstate⟩ := Prod.mk.inj (State.eatAny_of_mem hs)
    have hready : s.ready kinds = 1 := if_pos hs
    rw [hstate, hready]
    refine bump (fun hend => heof (hend ▸ hs)) (Nat.le_refl _) fun _ => ?_
    unfold Stepwise.eatAny
    rw [hstate]
  · obtain ⟨hvalue, hstate⟩ := Prod.mk.inj (State.eatAny_of_not_mem hs)
    have hready : s.ready kinds = 0 := if_neg hs
    rw [hvalue, hstate, hready]
    refine of_silent (fun _ => ?_) (.refl s) (by omega) (Nat.le_refl _)
    unfold Stepwise.eatAny
    rw [hvalue, hstate]

theorem expectAny (heof : .endOfFile ∉ kinds) :
    Within (0 - 20 * s.ready kinds) (s.consumed + s.ready kinds) (fun _ => Stepwise.expectAny kinds n) s
      (s.expectAny kinds n).value (s.expectAny kinds n).state := by
  by_cases hs : s.kind ∈ kinds
  · obtain ⟨hvalue, hstate⟩ :=
      Prod.mk.inj ((State.expectAny_of_mem n hs).trans (State.eatAny_of_mem hs).symm)
    rw [hvalue, hstate]
    apply get
    simp only [if_pos hs]
    exact eatAny heof
  · obtain ⟨hvalue, hstate⟩ := Prod.mk.inj (State.expectAny_of_not_mem n hs)
    have hready : s.ready kinds = 0 := if_neg hs
    -- An error, then what is skipped, which pays for itself, and perhaps a token where it resumes.
    rw [hvalue, hstate, hready]
    apply get
    simp only [if_neg hs]
    apply (modify (.fail n s)).bind
    apply synchronize.bind
    exact (eatAny heof).weaken (by omega) (Nat.le_add_right _ _)

theorem expect {kind : TokenKind} (hkind : kind ≠ .endOfFile) :
    Within (0 - 20 * s.ready [kind]) (s.consumed + s.ready [kind]) (fun _ => Stepwise.expect kind n) s
      (s.expect kind n).value (s.expect kind n).state := expectAny (mt List.mem_singleton.mp hkind.symm)

theorem of_ready (h : Within (b - c * s.ready kinds) (s.consumed + s.ready kinds) m s a t) (hc : 0 ≤ c) :
    Within b s.consumed m s a t := by
  have hpays : 0 ≤ c * s.ready kinds := Int.mul_nonneg hc (Int.natCast_nonneg _)
  exact h.weaken (by omega) (Nat.le_add_right _ _)

theorem expected {kind : TokenKind} (hkind : kind ≠ .endOfFile) :
    Within 0 s.consumed (fun _ => Stepwise.expect kind n) s (s.expect kind n).value
      (s.expect kind n).state := (expect hkind).of_ready (by decide)

end Within

end PalChecker.Parser
