import PalChecker.Proofs.Parser.Moves
import PalChecker.Proofs.Syntax.Spelling

/-!
# Faithful readings

A run that adds no error consumed every token it moved over, and each combination of such runs says what
the tokens are.
-/

namespace PalChecker.Parser

/-! ## Consuming -/

/-- From `s` to `t` exactly the tokens `u` were consumed, and no error was reported. -/
structure State.Consumes (s : State) (u : List Token) (t : State) : Prop where
  ahead : s.cursor.ahead = u ++ t.cursor.ahead
  inside : ∀ x ∈ u, x.kind ≠ .endOfFile
  errors : t.errors = s.errors
  recovering : t.recovering = false

namespace State.Consumes

theorem refl {s : State} (h : s.recovering = false) : s.Consumes [] s where
  ahead := rfl
  inside _ hx := absurd hx List.not_mem_nil
  errors := rfl
  recovering := h

theorem trans {s t r : State} {u v : List Token} (hu : s.Consumes u t) (hv : t.Consumes v r) :
    s.Consumes (u ++ v) r where
  ahead := by rw [hu.ahead, hv.ahead, List.append_assoc]
  inside x hx := (List.mem_append.mp hx).elim (hu.inside x) (hv.inside x)
  errors := hv.errors.trans hu.errors
  recovering := hv.recovering

theorem tick {s t : State} {u : List Token} (h : s.Consumes u t) : s.Consumes u t.tick :=
  ⟨h.ahead, h.inside, h.errors, h.recovering⟩

theorem of_tick {s t : State} {u : List Token} (h : s.tick.Consumes u t) : s.Consumes u t :=
  ⟨h.ahead, h.inside, h.errors, h.recovering⟩

theorem bump {s : State} (h : s.kind ≠ .endOfFile) : s.Consumes [s.current] s.bump := by
  have hahead : s.cursor.ahead ≠ [] := List.ne_nil_of_length_pos (State.remaining_pos h)
  obtain ⟨first, rest, hcons⟩ := List.exists_cons_of_ne_nil hahead
  constructor
  · simp [current, Cursor.current, Cursor.advance, hcons]
  · rintro x hx
    rw [List.mem_singleton.mp hx]
    exact h
  · exact errors_bump s
  · rfl

end State.Consumes

/-! ## Faithful readings -/

/-- Two parts, one after the other. -/
def Both {α β : Type} (p : α → List Token → Prop) (q : β → List Token → Prop) :
    α × β → List Token → Prop
  | (a, b), w => ∃ u v, w = u ++ v ∧ p a u ∧ q b v

/-- Errors are only added. If none is, then `p` holds of what was read and of the tokens consumed. -/
structure Faithful {α : Type} (p : α → List Token → Prop) (s : State) (a : α) (t : State) : Prop where
  grows : s.errors <+: t.errors
  clean : s.recovering = false → t.errors = s.errors → ∃ u, s.Consumes u t ∧ p a u

theorem eq_of_prefix_of_prefix {α : Type} {a b c : List α} (hab : a <+: b) (hbc : b <+: c)
    (hca : c = a) : b = a ∧ c = b := by
  subst hca
  have := hab.eq_of_length_le hbc.length_le
  exact ⟨this.symm, this⟩

theorem State.errors_prefix_fail (n : Nonterminal) (s : State) : s.errors <+: (s.fail n).errors := by
  cases h : s.recovering with
  | true =>
    simp only [errors_fail_of_recovering n h]
    exact List.prefix_rfl
  | false =>
    rw [errors_fail_of_not_recovering n h]
    exact List.prefix_append _ _

namespace Faithful

variable {α β γ : Type} {p : α → List Token → Prop} {q : β → List Token → Prop}
  {r : γ → List Token → Prop} {a : α} {b : β} {c : γ} {s t w : State}

theorem pure (h : p a []) : Faithful p s a s :=
  ⟨List.prefix_rfl, fun hs _ => ⟨[], .refl hs, h⟩⟩

theorem andThen (ha : Faithful p s a t) (hb : Faithful q t b w)
    (h : ∀ u v, p a u → q b v → r c (u ++ v)) : Faithful r s c w where
  grows := ha.grows.trans hb.grows
  clean hs herrors := by
    obtain ⟨hst, htw⟩ := eq_of_prefix_of_prefix ha.grows hb.grows herrors
    obtain ⟨u, hu, hpu⟩ := ha.clean hs hst
    obtain ⟨v, hv, hqv⟩ := hb.clean hu.recovering htw
    exact ⟨u ++ v, hu.trans hv, h u v hpu hqv⟩

theorem both (ha : Faithful p s a t) (hb : Faithful q t b w) : Faithful (Both p q) s (a, b) w :=
  ha.andThen hb fun u v hu hv => ⟨u, v, rfl, hu, hv⟩

theorem imp (ha : Faithful p s a t) (h : ∀ u, p a u → q b u) : Faithful q s b t where
  grows := ha.grows
  clean hs herrors := by
    obtain ⟨u, hu, hpu⟩ := ha.clean hs herrors
    exact ⟨u, hu, h u hpu⟩

theorem of_tick (ha : Faithful p s.tick a t) : Faithful p s a t where
  grows := ha.grows
  clean hs herrors := by
    obtain ⟨u, hu, hpu⟩ := ha.clean hs herrors
    exact ⟨u, hu.of_tick, hpu⟩

theorem tick (ha : Faithful p s a t) (h : ∀ u, p a u → q b u) : Faithful q s b t.tick where
  grows := ha.grows
  clean hs herrors := by
    obtain ⟨u, hu, hpu⟩ := ha.clean hs herrors
    exact ⟨u, hu.tick, h u hpu⟩

theorem consume (hs : s.kind ≠ .endOfFile) (ha : Faithful p s.bump a t) :
    Faithful (fun a u => ∃ v, u = s.current :: v ∧ p a v) s a t where
  grows := by
    have := ha.grows
    rwa [State.errors_bump] at this
  clean _ herrors := by
    obtain ⟨u, hu, hpu⟩ := ha.clean rfl (herrors.trans s.errors_bump.symm)
    exact ⟨s.current :: u, (State.Consumes.bump hs).trans hu, u, rfl, hpu⟩

theorem ofFail {n : Nonterminal} (h : (s.fail n).errors <+: t.errors) : Faithful p s a t where
  grows := (s.errors_prefix_fail n).trans h
  clean hs herrors := by
    have := h.length_le
    rw [State.errors_fail_of_not_recovering n hs, herrors, List.length_append] at this
    exact absurd this (by simp)

end Faithful

/-! ## One token -/

def IsOneOf (kinds : List TokenKind) (o : Option Token) (u : List Token) : Prop :=
  ∃ token, o = some token ∧ token.kind ∈ kinds ∧ u = [token]

theorem faithful_bump (kinds : List TokenKind) {s : State} (heof : .endOfFile ∉ kinds)
    (h : s.kind ∈ kinds) : Faithful (IsOneOf kinds) s (some s.current) s.bump := by
  have hs : s.kind ≠ .endOfFile := fun hs => heof (hs ▸ h)
  have hpure : Faithful (fun _ u => u = []) s.bump (some s.current) s.bump := .pure rfl
  refine (hpure.consume hs).imp ?_
  rintro u ⟨v, rfl, rfl⟩
  exact ⟨s.current, rfl, h, rfl⟩

theorem errors_prefix_eatAny (kinds : List TokenKind) (s : State) :
    s.errors <+: (s.eatAny kinds).state.errors := by
  unfold State.eatAny
  split
  · simp only [State.errors_bump]
    exact List.prefix_rfl
  · exact List.prefix_rfl

theorem faithful_expectAny (kinds : List TokenKind) (n : Nonterminal) (s : State)
    (heof : .endOfFile ∉ kinds) :
    Faithful (IsOneOf kinds) s (s.expectAny kinds n).value (s.expectAny kinds n).state := by
  by_cases h : s.kind ∈ kinds
  · obtain ⟨hvalue, hstate⟩ := Prod.mk.inj (State.expectAny_of_mem n h)
    rw [hvalue, hstate]
    exact faithful_bump kinds heof h
  · obtain ⟨-, hstate⟩ := Prod.mk.inj (State.expectAny_of_not_mem n h)
    apply Faithful.ofFail (n := n)
    rw [hstate, ← State.errors_synchronize n kinds (s.fail n)]
    exact errors_prefix_eatAny kinds _

theorem Faithful.fixed {α : Type} {p : α → List Token → Prop} {s t : State} {a : α} {k : TokenKind}
    (h : s.kind = k) (hk : k.IsFixed) (ha : Faithful p s.bump a t) :
    Faithful (fun a u => ∃ v, u.map Token.essence = .fixed k :: v.map Token.essence ∧ p a v) s a t := by
  have hhead : s.current.essence = .fixed k := Token.essence_of_fixed hk h
  refine (ha.consume (h ▸ hk.ne_endOfFile)).imp ?_
  rintro _ ⟨v, rfl, hv⟩
  exact ⟨v, by rw [List.map_cons, hhead], hv⟩

theorem faithful_expect (k : TokenKind) (n : Nonterminal) (s : State) (hk : k.IsFixed) :
    Faithful (fun _ u => u.map Token.essence = [.fixed k]) s (s.expect k n).value
      (s.expect k n).state := by
  refine (faithful_expectAny [k] n s (mt List.mem_singleton.mp hk.ne_endOfFile.symm)).imp ?_
  rintro u ⟨token, -, hkind, rfl⟩
  rw [List.map_singleton, Token.essence_of_fixed hk (List.mem_singleton.mp hkind)]

theorem Faithful.closed {α : Type} {p : α → List Token → Prop} {s t : State} {a : α}
    (ha : Faithful p s a t) (k : TokenKind) (n : Nonterminal) (hk : k.IsFixed) :
    Faithful (fun a u => ∃ v, u.map Token.essence = v.map Token.essence ++ [.fixed k] ∧ p a v) s a
      (t.expect k n).state := by
  refine (ha.both (faithful_expect k n t hk)).imp ?_
  rintro _ ⟨u, v, rfl, hu, hv⟩
  exact ⟨u, by rw [List.map_append, hv], hu⟩

theorem faithful_of_none {kinds : List TokenKind} {n : Nonterminal} {s : State}
    (heof : .endOfFile ∉ kinds) (h : (s.expectAny kinds n).value = none) :
    Faithful (fun _ _ => False) s (s.expectAny kinds n).value (s.expectAny kinds n).state := by
  refine (faithful_expectAny kinds n s heof).imp ?_
  rintro u ⟨token, htoken, -⟩
  cases h.symm.trans htoken

end PalChecker.Parser
