import PalChecker.Proofs.Parser.Progress
import PalChecker.Proofs.Syntax.Unnumbered

/-!
# Two runs over the same tokens

Where two streams begin alike, a run over the one that reports no error is repeated over the other, as
long as it stays within what they share. A run that gets further has consumed all of that in both.
-/

namespace PalChecker.Parser

/-! ## Repeating and going past -/

/-- Every token of `u` was consumed at once, before anything else was done. -/
def State.Consumed (u : List Token) (s t : State) : Prop :=
  (u.map Action.consumed).reverse ++ s.journal <:+ t.journal

/-- The streams are `v` and then `Y`, and `v` and then `Y'`. -/
abbrev Fork := List Token → List Token → List Token → Prop

/-- After the run from `s`, which reports no error, how the one from `s'` stands to it. -/
inductive Follows {α : Type} (R : α → α → Prop) (v Y Y' : List Token) (s : State) (r : α × State)
    (s' : State) (r' : α × State) : Prop where
  /-- Both stay within `v` and read the same. -/
  | repeats {u rest : List Token} (hv : v = u ++ rest) (hfirst : s.Passes u r.2)
    (hsecond : s'.Passes u r'.2) (hvalue : R r.1 r'.1)
  /-- The first gets past `v` and one token more, and so does the second if that token is the same. -/
  | goesPast (hlength : r.2.upcoming.length < Y.length)
    (hsecond : Y.head? = Y'.head? → s'.Consumed (v ++ Y.head?.toList) r'.2)

/-- If the run from `s` reports no error, the one from `s'` follows it up to the fork. -/
structure Mirrors {α : Type} (fork : Fork) (R : α → α → Prop) (s : State) (r : α × State) (s' : State)
    (r' : α × State) : Prop where
  later : s.Precedes r.2
  later' : s'.Precedes r'.2
  follows : s.recovering = false → r.2.errors = s.errors → ∀ {v Y Y' : List Token}, fork v Y Y' →
    s.upcoming = v ++ Y → s'.upcoming = v ++ Y' → Follows R v Y Y' s r s' r'

/-- The next token is the same, or each of the two ends every expression and list. -/
def parting : Fork := fun _ Y Y' =>
  ∃ y X y' X', Y = y :: X ∧ Y' = y' :: X' ∧ (y = y' ∨ Ends y.kind ∧ Ends y'.kind)

/-- The next token is the same. -/
def sharing : Fork := fun _ Y Y' => ∃ y X X', Y = y :: X ∧ Y' = y :: X'

/-- A fork that does not depend on how far ahead it lies. -/
class Fork.Steady (fork : Fork) : Prop where
  drop {u rest Y Y' : List Token} : fork (u ++ rest) Y Y' → fork rest Y Y'
  parting {v Y Y' : List Token} : fork v Y Y' → parting v Y Y'

instance : Fork.Steady parting where
  drop h := h
  parting h := h

instance : Fork.Steady sharing where
  drop h := h
  parting := by
    rintro _ _ _ ⟨y, X, X', rfl, rfl⟩
    exact ⟨y, X, y, X', rfl, rfl, .inl rfl⟩

namespace State.Consumed

variable {s t w : State} {u v : List Token}

theorem trans (h : s.Consumed u t) (h' : t.Precedes w) : s.Consumed u w := List.IsSuffix.trans h h'.1

theorem append (hu : s.Passes u t) (hv : t.Consumed v w) : s.Consumed (u ++ v) w := by
  unfold Consumed at hv ⊢
  rwa [List.map_append, List.reverse_append, List.append_assoc, ← hu.journal]

theorem bump (s : State) : s.Consumed [s.current] s.bump := List.suffix_rfl

end State.Consumed

namespace Mirrors

variable {α β γ : Type} {fork fork' : Fork} {R : α → α → Prop} {Q : β → β → Prop} {P : γ → γ → Prop}
  {s s' t t' w w' : State} {a a' : α} {b b' : β} {c c' : γ} {r r' : α × State}

theorem pure (h : R a a') : Mirrors fork R s (a, s) s' (a', s') where
  later := .refl s
  later' := .refl s'
  follows _ _ _ _ _ _ _ _ := .repeats (List.nil_append _).symm (.refl s) (.refl s') h

/-- One part after the other. Where the second part begins, the streams still fork as it needs. -/
theorem thenForked (ha : Mirrors fork R s (a, t) s' (a', t')) (hb : Mirrors fork' Q t (b, w) t' (b', w'))
    (hfork : s.recovering = false → ∀ {u rest Y Y'}, s.Passes u t → fork (u ++ rest) Y Y' →
      fork' rest Y Y')
    (h : R a a' → Q b b' → P c c') : Mirrors fork P s (c, w) s' (c', w') where
  later := ha.later.trans hb.later
  later' := ha.later'.trans hb.later'
  follows hs herrors {v Y Y'} hv hahead hahead' := by
    obtain ⟨hst, htw⟩ := eq_of_prefix_of_prefix ha.later.errors hb.later.errors herrors
    cases ha.follows hs hst hv hahead hahead' with
    | @repeats u rest hu hpasses hpasses' hvalue =>
      subst hu
      have hrest := hpasses.upcoming_eq (hahead.trans (List.append_assoc ..))
      have hrest' := hpasses'.upcoming_eq (hahead'.trans (List.append_assoc ..))
      -- The first part is read twice alike. Where the second begins, the streams fork as it needs.
      cases hb.follows (hpasses.not_recovering hs) htw (hfork hs hpasses hv) hrest hrest' with
      | repeats hv hpasses₂ hpasses₂' hvalue' =>
        exact .repeats (by rw [hv, List.append_assoc]) (hpasses.trans hpasses₂)
          (hpasses'.trans hpasses₂') (h hvalue hvalue')
      | goesPast hlength hsecond =>
        refine .goesPast hlength fun hhead => ?_
        rw [List.append_assoc]
        exact .append hpasses' (hsecond hhead)
    | goesPast hlength hsecond =>
      exact .goesPast (Nat.lt_of_le_of_lt hb.later.length_upcoming hlength) fun hhead =>
        (hsecond hhead).trans hb.later'

theorem tick (ha : Mirrors fork R s (a, t) s' (a', t')) (h : R a a' → P c c') :
    Mirrors fork P s (c, t.tick) s' (c', t'.tick) where
  later := ha.later.tick
  later' := ha.later'.tick
  follows hs herrors _ _ _ hv hahead hahead' := by
    cases ha.follows hs herrors hv hahead hahead' with
    | repeats hv hpasses hpasses' hvalue => exact .repeats hv hpasses.tick hpasses'.tick (h hvalue)
    | goesPast hlength hsecond => exact .goesPast hlength hsecond

theorem of_tick (ha : Mirrors fork R s.tick r s'.tick r') : Mirrors fork R s r s' r' where
  later := ha.later
  later' := ha.later'
  follows hs herrors _ _ _ hv hahead hahead' := by
    cases ha.follows hs herrors hv hahead hahead' with
    | repeats hv hpasses hpasses' hvalue => exact .repeats hv hpasses.of_tick hpasses'.of_tick hvalue
    | goesPast hlength hsecond => exact .goesPast hlength hsecond

theorem of_fork (ha : Mirrors fork R s r s' r') (h : ∀ {v Y Y'}, fork' v Y Y' → fork v Y Y') :
    Mirrors fork' R s r s' r' where
  later := ha.later
  later' := ha.later'
  follows hs herrors _ _ _ hv := ha.follows hs herrors (h hv)

theorem ofFail {n : Nonterminal} (h : (s.fail n).Precedes r.2) (h' : s'.Precedes r'.2) :
    Mirrors fork R s r s' r' where
  later := ((State.Precedes.refl s).fail n).trans h
  later' := h'
  follows hs herrors _ _ _ _ _ _ := by
    have hle := h.errors.length_le
    rw [State.errors_fail_of_not_recovering n hs, herrors, List.length_append] at hle
    exact absurd hle (by simp)

theorem apart (ha : Mirrors fork R s (a, t) s' (a', t')) (h : ¬R a a') (hlater : t.Precedes w)
    (hlater' : t'.Precedes w') : Mirrors fork P s (c, w) s' (c', w') where
  later := ha.later.trans hlater
  later' := ha.later'.trans hlater'
  follows hs herrors _ _ _ hv hahead hahead' := by
    obtain ⟨hst, -⟩ := eq_of_prefix_of_prefix ha.later.errors hlater.errors herrors
    cases ha.follows hs hst hv hahead hahead' with
    | repeats _ _ _ hvalue => exact absurd hvalue h
    | goesPast hlength hsecond =>
      exact .goesPast (Nat.lt_of_le_of_lt hlater.length_upcoming hlength) fun hhead =>
        (hsecond hhead).trans hlater'

/-! ### At a steady fork -/

section

variable [fork.Steady]

theorem narrow (ha : Mirrors parting R s r s' r') : Mirrors fork R s r s' r' :=
  ha.of_fork Fork.Steady.parting

theorem andThen (ha : Mirrors fork R s (a, t) s' (a', t')) (hb : Mirrors fork Q t (b, w) t' (b', w'))
    (h : R a a' → Q b b' → P c c') : Mirrors fork P s (c, w) s' (c', w') :=
  ha.thenForked hb (fun _ _ _ _ _ _ => Fork.Steady.drop) h

theorem both (ha : Mirrors fork R s (a, t) s' (a', t')) (hb : Mirrors fork Q t (b, w) t' (b', w')) :
    Mirrors fork (fun x x' => R x.1 x'.1 ∧ Q x.2 x'.2) s ((a, b), w) s' ((a', b'), w') :=
  ha.andThen hb And.intro

theorem bump (hs : s.kind ≠ .endOfFile) (hc : s'.current = s.current)
    (h : Mirrors fork R s.bump r s'.bump r') : Mirrors fork R s r s' r' where
  later := h.later.of_bump
  later' := h.later'.of_bump
  follows _ herrors {v Y Y'} hv hahead hahead' := by
    have hs' : s'.kind ≠ .endOfFile := fun h => hs ((congrArg Token.kind hc).symm.trans h)
    cases v with
    | cons x v =>
      rw [List.cons_append] at hahead hahead'
      have hx := State.current_of_upcoming hahead
      have hx' := State.current_of_upcoming hahead'
      have hrest := State.upcoming_bump_of_cons hahead (hx ▸ hs)
      have hrest' := State.upcoming_bump_of_cons hahead' (hx' ▸ hs')
      have hv : fork v Y Y' := Fork.Steady.drop (u := [x]) hv
      cases h.follows rfl (herrors.trans s.errors_bump.symm) hv hrest hrest' with
      | @repeats u rest hv hpasses hpasses' hvalue =>
        have hv : x :: v = x :: u ++ rest := by rw [hv, List.cons_append]
        refine .repeats hv ?_ ?_ hvalue
        · exact hx ▸ .cons hs hpasses
        · exact hx' ▸ .cons hs' hpasses'
      | goesPast hlength hsecond =>
        refine .goesPast hlength fun hhead => ?_
        have hpast := State.Consumed.append (.bump hs') (hsecond hhead)
        rwa [hx'] at hpast
    | nil =>
      -- Nothing is shared any more, so the first run has passed the fork.
      have hY : Y = s.current :: s.bump.upcoming := hahead.symm.trans (State.upcoming_bump hs)
      subst hY
      refine .goesPast (Nat.lt_succ_of_le h.later.length_upcoming) fun _ => ?_
      exact hc ▸ (State.Consumed.bump s').trans h.later'

end

theorem look {D : TokenKind → Prop} (hD : ∀ {k}, Ends k → D k) (hs : D s.kind)
    (hlater : s.Precedes r.2) (hlater' : s'.Precedes r'.2)
    (h : D s'.kind → Mirrors parting R s r s' r') : Mirrors parting R s r s' r' := by
  by_cases hs' : D s'.kind
  · exact h hs'
  · refine ⟨hlater, hlater', fun _ _ {v Y Y'} hv hahead hahead' => absurd ?_ hs'⟩
    cases v with
    | cons x v =>
      rw [State.kind_of_upcoming hahead']
      rwa [State.kind_of_upcoming hahead] at hs
    | nil =>
      obtain ⟨y, X, y', X', rfl, rfl, rfl | ⟨-, hends⟩⟩ := hv
      · rw [State.kind_of_upcoming hahead']
        rwa [State.kind_of_upcoming hahead] at hs
      · rw [State.kind_of_upcoming hahead']
        exact hD hends

theorem consume (hs : s.kind ≠ .endOfFile) (hlater : s.bump.Precedes r.2) (hlater' : s'.Precedes r'.2)
    (h : s'.current = s.current → Mirrors parting R s.bump r s'.bump r') :
    Mirrors parting R s r s' r' := by
  by_cases hc : s'.current = s.current
  · exact .bump hs hc (h hc)
  · refine ⟨hlater.of_bump, hlater', fun _ _ {v Y Y'} hv hahead hahead' => ?_⟩
    cases v with
    | cons x v =>
      have hx' := State.current_of_upcoming hahead'
      exact absurd (hx'.trans (State.current_of_upcoming hahead).symm) hc
    | nil =>
      obtain ⟨y, X, y', X', rfl, rfl, -⟩ := hv
      have hy := State.current_of_upcoming hahead
      have hlength := hlater.length_upcoming
      rw [State.upcoming_bump_of_cons hahead (hy ▸ hs)] at hlength
      -- The token is the first one behind the fork, and there the streams differ.
      refine .goesPast (Nat.lt_succ_of_le hlength) fun hhead => absurd ?_ hc
      rw [hy, State.current_of_upcoming hahead', Option.some.inj hhead]

theorem same (hfork : ∀ {v Y Y'}, fork v Y Y' → sharing v Y Y') (hlater : s.Precedes r.2)
    (hlater' : s'.Precedes r'.2) (h : s'.current = s.current → Mirrors fork R s r s' r') :
    Mirrors fork R s r s' r' := by
  by_cases hs : s'.current = s.current
  · exact h hs
  · refine ⟨hlater, hlater', fun _ _ {v Y Y'} hv hahead hahead' => absurd ?_ hs⟩
    cases v with
    | cons x v =>
      exact (State.current_of_upcoming hahead').trans (State.current_of_upcoming hahead).symm
    | nil =>
      obtain ⟨y, X, X', rfl, rfl⟩ := hfork hv
      exact (State.current_of_upcoming hahead').trans (State.current_of_upcoming hahead).symm

/-- If the first run reads as much as the two streams share, so does the second. -/
theorem passes {u Y Y' : List Token} (h : Mirrors fork R s r s' r') (hs : s.recovering = false)
    (herrors : r.2.errors = s.errors) (hfork : fork u Y Y') (hahead : s.upcoming = u ++ Y)
    (hahead' : s'.upcoming = u ++ Y') (hlength : r.2.upcoming.length = Y.length) :
    s.Passes u r.2 ∧ s'.Passes u r'.2 ∧ R r.1 r'.1 := by
  cases h.follows hs herrors hfork hahead hahead' with
  | @repeats w more hv hfirst hsecond hvalue =>
    have hupcoming := hfirst.upcoming_eq (hahead.trans (hv ▸ List.append_assoc ..))
    rw [hupcoming, List.length_append] at hlength
    -- Nothing that is shared is left.
    have hmore : more = [] := List.length_eq_zero_iff.mp (by omega)
    rw [hmore, List.append_nil] at hv
    exact ⟨hv ▸ hfirst, hv ▸ hsecond, hvalue⟩
  | goesPast hpast _ => exact absurd (hlength ▸ hpast) (Nat.lt_irrefl _)

end Mirrors

end PalChecker.Parser
