import PalChecker.Proofs.Parser.History

/-!
# Every dropped token is blamed

Tokens are dropped only behind an error, and the next error is reported only behind a consumed token. So
the errors stand one at the head of each block of dropped tokens, or where nothing is dropped at all.
-/

namespace PalChecker.Parser

/-! ## Errors among fates -/

/-- Tokens passed and errors reported in turn, given by their places: an error is recovered from until
the next token is consumed, and only meanwhile tokens are dropped. -/
inductive Orderly : Bool → List Fate → List Nat → Prop where
  | start : Orderly false [] []
  | consume {recovering : Bool} {fates : List Fate} {places : List Nat} :
    Orderly recovering fates places → Orderly false (fates ++ [.consumed]) places
  | report {fates : List Fate} {places : List Nat} :
    Orderly false fates places → Orderly true fates (places ++ [fates.length])
  | drop {fates : List Fate} {places : List Nat} :
    Orderly true fates places → Orderly true (fates ++ [.dropped]) places

namespace Orderly

variable {recovering : Bool} {fates : List Fate} {places : List Nat}

theorem dropAll (h : Orderly true fates places) (n : Nat) :
    Orderly true (fates ++ List.replicate n .dropped) places := by
  induction n with
  | zero => rwa [List.replicate_zero, List.append_nil]
  | succ n ih =>
    rw [List.replicate_succ', ← List.append_assoc]
    exact ih.drop

theorem place_le (h : Orderly recovering fates places) :
    ∀ place ∈ places, place ≤ fates.length ∧ (recovering = false → place < fates.length) := by
  induction h with
  | start => exact fun _ h => absurd h List.not_mem_nil
  | consume _ ih =>
    intro place hplace
    have := (ih place hplace).1
    rw [List.length_append, List.length_singleton]
    omega
  | report _ ih =>
    rw [List.forall_mem_append, List.forall_mem_singleton]
    exact ⟨fun place hplace => ⟨(ih place hplace).1, nofun⟩, Nat.le_refl _, nofun⟩
  | drop _ ih =>
    intro place hplace
    have := (ih place hplace).1
    rw [List.length_append, List.length_singleton]
    exact ⟨by omega, nofun⟩

theorem increasing (h : Orderly recovering fates places) : places.Pairwise (· < ·) := by
  induction h with
  | start => exact .nil
  | consume _ ih => exact ih
  | report h ih =>
    refine List.pairwise_append.mpr ⟨ih, List.pairwise_singleton _ _, fun place hplace next hnext => ?_⟩
    rw [List.mem_singleton.mp hnext]
    exact (h.place_le place hplace).2 rfl
  | drop _ ih => exact ih

theorem getElem?_append_of_some {fate : Fate} {i : Nat} (h : fates[i]? = some fate)
    (more : List Fate) : (fates ++ more)[i]? = some fate := by
  rwa [List.getElem?_append_left (List.getElem?_eq_some_iff.mp h).1]

/-- The token before an error was consumed, and so was the last one unless an error is behind. -/
theorem consumed_before (h : Orderly recovering fates places) :
    (∀ place, place + 1 ∈ places → fates[place]? = some .consumed) ∧
      (recovering = false → ∀ last, fates.length = last + 1 → fates[last]? = some .consumed) := by
  induction h with
  | start => exact ⟨fun _ h => absurd h List.not_mem_nil, fun _ _ h => absurd h (by simp)⟩
  | consume _ ih =>
    constructor
    · intro place hplace
      exact getElem?_append_of_some (ih.1 place hplace) _
    · intro _ last hlast
      rw [List.length_append, List.length_singleton] at hlast
      rw [← Nat.succ.inj hlast]
      exact List.getElem?_concat_length
  | report _ ih =>
    refine ⟨fun place hplace => ?_, nofun⟩
    rcases List.mem_append.mp hplace with hplace | hplace
    · exact ih.1 place hplace
    · -- The error is new, and what comes before it was consumed, for nothing had failed.
      exact ih.2 rfl place (List.mem_singleton.mp hplace).symm
  | drop _ ih =>
    refine ⟨fun place hplace => ?_, nofun⟩
    exact getElem?_append_of_some (ih.1 place hplace) _

/-- Everything from an error up to a dropped token is dropped. -/
def Covers (fates : List Fate) (place i : Nat) : Prop :=
  place ≤ i ∧ ∀ j, place ≤ j → j ≤ i → fates[j]? = some .dropped

theorem Covers.append {place i : Nat} (h : Covers fates place i) (more : List Fate) :
    Covers (fates ++ more) place i :=
  ⟨h.1, fun j hj hi => getElem?_append_of_some (h.2 j hj hi) more⟩

theorem covered (h : Orderly recovering fates places) :
    (∀ i, fates[i]? = some .dropped → ∃ place ∈ places, Covers fates place i) ∧
      (recovering = true → ∃ place ∈ places, place ≤ fates.length ∧
        ∀ j, place ≤ j → j < fates.length → fates[j]? = some .dropped) := by
  induction h with
  | start => exact ⟨fun _ h => absurd h (by simp), nofun⟩
  | @consume _ fates _ _ ih =>
    refine ⟨fun i hi => ?_, nofun⟩
    rcases Nat.lt_or_ge i fates.length with hlt | hge
    · rw [List.getElem?_append_left hlt] at hi
      obtain ⟨place, hplace, hcovers⟩ := ih.1 i hi
      exact ⟨place, hplace, hcovers.append _⟩
    · rw [List.getElem?_append_right hge, List.getElem?_singleton] at hi
      split at hi <;> cases hi
  | @report fates places _ ih =>
    constructor
    · intro i hi
      obtain ⟨place, hplace, hcovers⟩ := ih.1 i hi
      exact ⟨place, List.mem_append_left _ hplace, hcovers⟩
    · refine fun _ => ⟨fates.length, List.mem_append_right _ List.mem_cons_self, Nat.le_refl _, ?_⟩
      intro j hj hlt
      omega
  | @drop fates _ _ ih =>
    -- Past the error that is recovered from everything is dropped, the new token included.
    obtain ⟨place, hplace, hle, hall⟩ := ih.2 rfl
    have hlast : ∀ j, place ≤ j → j < (fates ++ [Fate.dropped]).length →
        (fates ++ [Fate.dropped])[j]? = some .dropped := by
      intro j hj hlt
      rw [List.length_append, List.length_singleton] at hlt
      rcases Nat.lt_or_ge j fates.length with hj' | hj'
      · rw [List.getElem?_append_left hj']
        exact hall j hj hj'
      · rw [show j = fates.length by omega]
        exact List.getElem?_concat_length
    constructor
    · intro i hi
      rcases Nat.lt_or_ge i fates.length with hlt | hge
      · rw [List.getElem?_append_left hlt] at hi
        obtain ⟨place', hplace', hcovers⟩ := ih.1 i hi
        exact ⟨place', hplace', hcovers.append _⟩
      · have hi' := (List.getElem?_eq_some_iff.mp hi).1
        exact ⟨place, hplace, Nat.le_trans hle hge, fun j hj hji => hlast j hj (Nat.lt_of_le_of_lt hji hi')⟩
    · refine fun _ => ⟨place, hplace, ?_, hlast⟩
      rw [List.length_append]
      exact Nat.le_trans hle (Nat.le_add_right _ _)

/-- Between two errors a token was consumed. -/
theorem length_places_le (h : Orderly recovering fates places) :
    places.length ≤ fates.count .consumed + recovering.toNat := by
  induction h with
  | start => exact Nat.le_refl _
  | @consume recovering _ _ _ ih =>
    have hle := Bool.toNat_le recovering
    rw [List.count_append, List.count_singleton_self]
    simp only [Bool.toNat_false]
    omega
  | report _ ih =>
    rw [List.length_append]
    exact Nat.succ_le_succ ih
  | drop _ ih =>
    rw [List.count_append]
    exact Nat.le_trans ih (Nat.add_le_add_right (Nat.le_add_right _ _) _)

end Orderly

/-- As many tokens as can be, all dropped: those from `first` on and before `next`. -/
structure DroppedBlock (fates : List Fate) (first next : Nat) : Prop where
  nonempty : first < next
  dropped : ∀ i, first ≤ i → i < next → fates[i]? = some .dropped
  before : ∀ i, first = i + 1 → fates[i]? ≠ some .dropped
  behind : fates[next]? ≠ some .dropped

namespace DroppedBlock

variable {recovering : Bool} {fates : List Fate} {places : List Nat} {first next : Nat}

theorem eq_first_of_mem (hblock : DroppedBlock fates first next) (h : Orderly recovering fates places)
    {place : Nat} (hplace : place ∈ places) (hfirst : first ≤ place) (hnext : place < next) :
    place = first := by
  cases place with
  | zero => exact (Nat.le_zero.mp hfirst).symm
  | succ earlier =>
    -- Were the place further on, the token before it would be both consumed and dropped.
    refine (Nat.eq_or_lt_of_le hfirst).elim Eq.symm fun hlt => ?_
    have hconsumed := h.consumed_before.1 earlier hplace
    rw [hblock.dropped earlier (Nat.le_of_lt_succ hlt) (Nat.lt_of_succ_lt hnext)] at hconsumed
    cases hconsumed

theorem first_mem (hblock : DroppedBlock fates first next) (h : Orderly recovering fates places) :
    first ∈ places := by
  have hfirst := hblock.dropped first (Nat.le_refl _) hblock.nonempty
  obtain ⟨place, hplace, hle, hcovers⟩ := h.covered.1 first hfirst
  rcases Nat.eq_or_lt_of_le hle with rfl | hlt
  · exact hplace
  · obtain ⟨i, rfl⟩ := Nat.exists_eq_add_of_lt hlt
    exact absurd (hcovers (place + i) (Nat.le_add_right _ _) (Nat.le_succ _)) (hblock.before _ rfl)

end DroppedBlock

/-! ## The errors of a parse -/

namespace State

variable {s t : State}

/-- What was passed and what was reported up to now is in order. -/
def IsOrderly (s : State) : Prop := Orderly s.recovering s.fates (s.located.map Prod.fst)

theorem IsOrderly.move (h : s.IsOrderly) (hmove : s.Move t) : t.IsOrderly := by
  unfold IsOrderly fates at h ⊢
  cases hmove with
  | consume =>
    rw [passed_bump, located_bump, List.map_append]
    exact h.consume
  | fail n =>
    rw [passed_fail]
    cases hs : s.recovering with
    | true =>
      rw [located_fail_of_recovering n hs, recovering_fail, ← hs]
      exact h
    | false =>
      rw [located_fail_of_not_recovering n hs, recovering_fail, List.map_append]
      rw [hs] at h
      -- The new error is at the place where the passed tokens end.
      have hreport := h.report
      rwa [List.length_map] at hreport
  | discard _ hs =>
    rw [passed_discard, located_discard, List.map_append, show s.discard.recovering = true from hs]
    exact (hs ▸ h).drop
  | skip n extra hs =>
    rw [passed_synchronize, located_synchronize, List.map_append, List.map_map,
      show (s.synchronize n extra).recovering = true from hs]
    rw [hs] at h
    have hdropped := h.dropAll (s.cursor.skipped (n.syncSet ++ extra)).length
    rwa [← List.map_const] at hdropped

end State

theorem Builds.isOrderly {s t : State} {nodes : List Node} (h : Builds s nodes t) (hs : s.IsOrderly) :
    t.IsOrderly := h.invariant (fun hs hmove => hs.move hmove) (fun hs => hs) hs

/-- How the errors of a run over `stream` stand to the tokens that it consumed and dropped. -/
structure Outcome.BlamesDropped (stream : List Token) (o : Outcome) : Prop extends
    o.LocatesErrors stream where
  passed : o.passed.map Prod.fst = stream.take o.final.cursor.position
  /-- Each block is blamed once, at its first token. -/
  once : ∀ first next, DroppedBlock o.fates first next →
    ∃ f, o.located.filter (fun e => first ≤ e.1 ∧ e.1 < next) = [(first, f)]
  increasing : o.located.Pairwise (·.1 < ·.1)
  few : o.errors.length ≤ o.fates.count .consumed + 1
  clean : o.errors = [] → ∀ fate ∈ o.fates, fate = .consumed

theorem DroppedBlock.filter_eq {recovering : Bool} {fates : List Fate} {first next : Nat}
    {located : List (Nat × Finding)} (hblock : DroppedBlock fates first next)
    (h : Orderly recovering fates (located.map Prod.fst)) :
    ∃ f, located.filter (fun e => first ≤ e.1 ∧ e.1 < next) = [(first, f)] := by
  obtain ⟨⟨place, f⟩, hmem, rfl⟩ := List.mem_map.mp (hblock.first_mem h)
  obtain ⟨earlier, later, rfl⟩ := List.append_of_mem hmem
  have hincreasing := List.pairwise_append.mp (List.pairwise_map.mp h.increasing)
  -- Earlier errors lie before the block, and a later one inside would be at its head.
  have hearlier : ∀ e ∈ earlier, ¬(place ≤ e.1 ∧ e.1 < next) := by
    intro e he hinside
    have hlt : e.1 < place := hincreasing.2.2 e he _ List.mem_cons_self
    omega
  have hlater : ∀ e ∈ later, ¬(place ≤ e.1 ∧ e.1 < next) := by
    intro e he hinside
    have hlt : place < e.1 := (List.pairwise_cons.mp hincreasing.2.1).1 e he
    have hplace : e.1 ∈ (earlier ++ (place, f) :: later).map Prod.fst :=
      List.mem_map_of_mem (List.mem_append_right _ (List.mem_cons_of_mem _ he))
    have := hblock.eq_first_of_mem h hplace hinside.1 hinside.2
    omega
  refine ⟨f, ?_⟩
  rw [List.filter_append, List.filter_eq_nil_iff.mpr fun e he => by simpa using hearlier e he,
    List.filter_cons_of_pos (by simpa using hblock.nonempty),
    List.filter_eq_nil_iff.mpr fun e he => by simpa using hlater e he]
  rfl

/-- In every parse each block of dropped tokens is blamed by one error, at its first token; no token is
blamed twice, and without an error nothing is dropped. -/
theorem dropped_blocks_are_blamed_once (tokens : List Token) :
    (parse tokens).BlamesDropped (Cursor.ofTokens tokens).stream := by
  have haccurate := accurate_parse tokens
  have horderly : (parse tokens).final.IsOrderly := (builds_parse tokens).isOrderly .start
  have herrors := (locatesErrors_parse tokens).errors
  constructor
  case toLocatesErrors => exact locatesErrors_parse tokens
  case passed =>
    rw [haccurate.stream_split, ← haccurate.length_passed]
    exact (List.take_left' (List.length_map _)).symm
  case once => exact fun first next hblock => hblock.filter_eq horderly
  case increasing => exact List.pairwise_map.mp horderly.increasing
  case few =>
    have hle := horderly.length_places_le
    have hlast := Bool.toNat_le (parse tokens).final.recovering
    rw [List.length_map] at hle
    rw [← herrors, List.length_map]
    exact Nat.le_trans hle (Nat.add_le_add_left hlast _)
  case clean =>
    intro hclean fate hfate
    have hnone : (parse tokens).final.located = [] :=
      List.map_eq_nil_iff.mp (herrors.trans hclean)
    cases fate with
    | consumed => rfl
    | dropped =>
      -- A dropped token lies behind an error, and there is none.
      obtain ⟨i, hi⟩ := List.getElem?_of_mem hfate
      obtain ⟨place, hplace, -⟩ := horderly.covered.1 i hi
      rw [hnone] at hplace
      exact absurd hplace List.not_mem_nil

end PalChecker.Parser
