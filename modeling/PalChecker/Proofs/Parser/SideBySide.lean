import PalChecker.Proofs.Parser.Faulted
import PalChecker.Proofs.Syntax.Strewn

/-!
# A run beside one over a strewn stream

Of two runs one is over a sentence, and the other over the same sentence strewn with stray tokens. After
each part the first has reported nothing and the second what the runs in it call for, and what they have
read is alike.
-/

namespace PalChecker

/-- What is reported for a stray run. -/
def StrayRun.diagnostic (run : StrayRun) : Diagnostic := .syntaxError .statement run.first

namespace Parser

open Grammar (Construct)

/-! ## Two states -/

/-- The first has `Y` ahead and reported nothing; the second has `Y'` ahead and reported `ds`. -/
structure State.Beside (s s' : State) (ds : List Diagnostic) (Y Y' : List Token) : Prop where
  upcoming : s.upcoming = Y
  errors : s.errors = []
  recovering : s.recovering = false
  upcoming' : s'.upcoming = Y'
  reported : s'.errors.map Finding.diagnostic = ds

/-- And the second is not recovering either. -/
structure State.Abreast (s s' : State) (ds : List Diagnostic) (Y Y' : List Token) : Prop
    extends State.Beside s s' ds Y Y' where
  recovering' : s'.recovering = false

section

variable {ds : List Diagnostic} {s s' t t' : State} {x : Token} {u Y Y' : List Token}

namespace State.Beside

theorem sees (h : s.Beside s' ds Y Y') : s.Sees (Y.map Token.essence) :=
  ⟨congrArg (List.map Token.essence) h.upcoming, h.errors, h.recovering⟩

theorem kind (h : s.Beside s' ds (x :: Y) Y') : s.kind = x.kind := kind_of_upcoming h.upcoming

theorem kind' (h : s.Beside s' ds Y (x :: Y')) : s'.kind = x.kind := kind_of_upcoming h.upcoming'

theorem current_eq (h : s.Beside s' ds (x :: Y) (x :: Y')) : s'.current = s.current :=
  (current_of_upcoming h.upcoming').trans (current_of_upcoming h.upcoming).symm

theorem tick (h : s.Beside s' ds Y Y') : s.tick.Beside s'.tick ds Y Y' :=
  ⟨h.upcoming, h.errors, h.recovering, h.upcoming', h.reported⟩

theorem passes (h : s.Beside s' ds (u ++ Y) (u ++ Y')) (hu : s.Passes u t) (hu' : s'.Passes u t') :
    t.Beside t' ds Y Y' where
  upcoming := hu.upcoming_eq h.upcoming
  errors := hu.errors.trans h.errors
  recovering := hu.not_recovering h.recovering
  upcoming' := hu'.upcoming_eq h.upcoming'
  reported := by
    rw [hu'.errors]
    exact h.reported

theorem passes_cons (h : s.Beside s' ds (x :: u ++ Y) (x :: u ++ Y')) (hu : s.Passes (x :: u) t)
    (hu' : s'.Passes (x :: u) t') : t.Abreast t' ds Y Y' :=
  ⟨h.passes hu hu', hu'.not_recovering_of_ne_nil (List.cons_ne_nil _ _)⟩

theorem expectAny {kinds : List TokenKind} (h : s.Beside s' ds (x :: Y) (x :: Y')) (n : Nonterminal)
    (hx : x.kind ∈ kinds) (heof : .endOfFile ∉ kinds) :
    (s.expectAny kinds n).value = some x ∧ (s'.expectAny kinds n).value = some x ∧
      (s.expectAny kinds n).state.Abreast (s'.expectAny kinds n).state ds Y Y' := by
  obtain ⟨hvalue, hpasses⟩ := passes_expectAny n hx heof h.upcoming
  obtain ⟨hvalue', hpasses'⟩ := passes_expectAny n hx heof h.upcoming'
  exact ⟨hvalue, hvalue', h.passes_cons (u := []) hpasses hpasses'⟩

theorem expect {k : TokenKind} (h : s.Beside s' ds (x :: Y) (x :: Y')) (n : Nonterminal)
    (hx : x.kind = k) (hk : k.IsFixed) :
    (s.expect k n).state.Abreast (s'.expect k n).state ds Y Y' :=
  (h.expectAny n (List.mem_singleton.mpr hx) (mt List.mem_singleton.mp hk.ne_endOfFile.symm)).2.2

theorem bump (h : s.Beside s' ds (x :: Y) (x :: Y')) (hx : x.kind ≠ .endOfFile) :
    s.bump.Abreast s'.bump ds Y Y' := by
  have hpasses := State.Passes.bump (h.kind ▸ hx : s.kind ≠ .endOfFile)
  have hpasses' := State.Passes.bump (h.kind' ▸ hx : s'.kind ≠ .endOfFile)
  rw [current_of_upcoming h.upcoming] at hpasses
  rw [current_of_upcoming h.upcoming'] at hpasses'
  exact h.passes_cons (u := []) hpasses hpasses'

theorem reread {α : Type} {fork : Fork} {R : α → α → Prop} {f : State → α × State}
    (h : s.Beside s' ds (u ++ Y) (u ++ Y')) (hmirror : Mirrors fork R s (f s) s' (f s'))
    (hfork : fork u Y Y')
    (hread : s.Sees ((u ++ Y).map Token.essence) → (f s).2.Sees (Y.map Token.essence)) :
    s.Passes u (f s).2 ∧ s'.Passes u (f s').2 ∧ R (f s).1 (f s').1 := by
  have hsees := hread h.sees
  have hlength := congrArg List.length hsees.stream
  simp only [List.length_map] at hlength
  exact hmirror.passes h.recovering (hsees.errors.trans h.errors.symm) hfork h.upcoming h.upcoming'
    hlength

theorem condition {k : Keyword} (h : s.Beside s' ds (u ++ x :: Y) (u ++ x :: Y'))
    (hu : Construct.condition.Reads u) (hx : x.kind = .keyword k) :
    (Parser.condition s).state.Beside (Parser.condition s').state ds (x :: Y) (x :: Y') ∧
      AlikeBy Condition.unnumbered (Parser.condition s).value (Parser.condition s').value := by
  obtain ⟨c, hc, hspelling⟩ := hu
  obtain ⟨hpasses, hpasses', halike⟩ := h.reread (f := fun s => (Parser.condition s).result)
    (mirrored_condition s s') ⟨x, Y, Y', rfl, rfl⟩ fun hs => by
      rw [List.map_append, ← hspelling, List.map_cons] at hs
      exact (rereads_condition hc (by rw [Token.essence_kind, hx]; exact .keyword k) hs).2
  exact ⟨h.passes hpasses hpasses', halike⟩

end State.Beside

theorem State.Abreast.tick (h : s.Abreast s' ds Y Y') : s.tick.Abreast s'.tick ds Y Y' :=
  ⟨h.toBeside.tick, h.recovering'⟩

/-! ## Stray runs -/

theorem not_halts_of_alien {run : StrayRun} :
    ∀ t ∈ run.tokens, ¬Cursor.Halts (Nonterminal.statement.syncSet ++ []) t := by
  intro t ht
  rw [List.append_nil]
  exact fun h => run.alien t ht (List.mem_cons.mpr h)

/-- A stray run is one error, and is dropped to its end. -/
theorem State.Abreast.skip {run : StrayRun} {rest' : List Token}
    (h : s.Abreast s' ds Y (run.tokens ++ x :: rest')) (hx : x.kind ∈ behindStatement) :
    s.Beside s'.stepped (ds ++ [run.diagnostic]) Y (x :: rest') where
  upcoming := h.upcoming
  errors := h.errors
  recovering := h.recovering
  upcoming' := by
    have hfirst := run.alien run.first List.mem_cons_self
    have hfail : (s'.fail .statement).upcoming = run.first :: (run.others ++ x :: rest') :=
      (State.upcoming_fail _ _).trans h.upcoming'
    -- The first token is dropped for itself, the others on the way to `x`.
    have hdropped := State.upcoming_discard_of_cons hfail fun h => hfirst (h ▸ List.mem_cons_self)
    exact State.upcoming_synchronize_of_append hdropped
      (fun t ht => not_halts_of_alien t (List.mem_cons_of_mem _ ht)) (.inr (List.mem_append_left _ hx))
  reported := by
    rw [State.errors_synchronize, State.errors_discard,
      State.errors_fail_of_not_recovering _ h.recovering', List.map_append, h.reported,
      State.current_of_upcoming h.upcoming']
    rfl

theorem statements_of_stray {stops : List TokenKind} {run : StrayRun} {Z : List Token}
    (hstops : ∀ k ∈ stops, k ∈ TokenKind.blockEnd) (h : s.upcoming = run.tokens ++ Z) :
    (statements stops s).result = (statements stops s.stepped).result := by
  have hkind : s.kind = run.first.kind := State.kind_of_upcoming h
  have halien := run.alien run.first List.mem_cons_self
  rw [← hkind] at halien
  refine statements_of_not_start (fun hstop => halien ?_) fun hstart => halien ?_
  · exact List.mem_cons.mpr (hstop.imp_right fun h => List.mem_append_right _ (hstops _ h))
  · exact List.mem_cons_of_mem _ (List.mem_append_left _ hstart)

/-! ## Blocks -/

/-- Both statements are read to their ends. -/
def StatementsAbreast (ds : List Diagnostic) (r r' : Statement × State) (Y Y' : List Token) : Prop :=
  r.2.Abreast r'.2 ds Y Y' ∧ AlikeBy Statement.unnumbered r.1 r'.1

/-- Both blocks are read to their ends. -/
def BlocksBeside (ds : List Diagnostic) (r r' : List Statement × State) (Y Y' : List Token) : Prop :=
  r.2.Beside r'.2 ds Y Y' ∧ AlikeBy Statement.allUnnumbered r.1 r'.1

/-- A statement that is read beside the same one strewn with the runs, whatever ends it. -/
structure StrewnStatement (w w' : List Token) (runs : List StrayRun) : Prop where
  start : ∃ t u u', w = t :: u ∧ w' = t :: u' ∧ t.kind ∈ TokenKind.statementStart
  read {s s' : State} {ds : List Diagnostic} {y y' : Token} {rest rest' : List Token} :
    y.kind ∈ behindStatement → Ends y'.kind → s.Beside s' ds (w ++ y :: rest) (w' ++ y' :: rest') →
      StatementsAbreast (ds ++ runs.map StrayRun.diagnostic) (statement s.current s.bump).result
        (statement s'.current s'.bump).result (y :: rest) (y' :: rest')

/-- Statements, before each of which and at the end of which a run may stand. -/
inductive StrewnBlock : List Token → List Token → List StrayRun → Prop where
  | nil : StrewnBlock [] [] []
  | behind (run : StrayRun) : StrewnBlock [] run.tokens [run]
  | cons {u u' v v' : List Token} {runs more : List StrayRun} (hu : StrewnStatement u u' runs)
    (hv : StrewnBlock v v' more) : StrewnBlock (u ++ v) (u' ++ v') (runs ++ more)
  | before {u u' v v' : List Token} {runs more : List StrayRun} (run : StrayRun)
    (hu : StrewnStatement u u' runs) (hv : StrewnBlock v v' more) :
    StrewnBlock (u ++ v) (run.tokens ++ u' ++ v') (run :: runs ++ more)

theorem ends_of_not_joining {k : TokenKind}
    (h : k ∉ [TokenKind.punct .plus, .punct .minus, .punct .star, .punct .slash, .punct .comma]) :
    Ends k where
  additive := by
    cases hop : BinaryOp.additive? k with
    | none => rfl
    | some op =>
      obtain ⟨-, rfl⟩ := BinaryOp.additive?_eq_some_iff.mp hop
      cases op <;> exact absurd h (by decide)
  multiplicative := by
    cases hop : BinaryOp.multiplicative? k with
    | none => rfl
    | some op =>
      obtain ⟨-, rfl⟩ := BinaryOp.multiplicative?_eq_some_iff.mp hop
      cases op <;> exact absurd h (by decide)
  ne_comma := by
    rintro rfl
    exact absurd h (by decide)

theorem StrewnBlock.exists_cons {v v' : List Token} {runs : List StrayRun} (h : StrewnBlock v v' runs)
    (hx : x.kind ∈ TokenKind.blockEnd) (rest rest' : List Token) :
    (∃ y b, v ++ x :: rest = y :: b ∧ y.kind ∈ behindStatement) ∧
      ∃ y b, v' ++ x :: rest' = y :: b ∧ Ends y.kind := by
  have hblockEnd : x.kind ∈ behindStatement := List.mem_append_right _ hx
  cases h with
  | nil => exact ⟨⟨x, rest, rfl, hblockEnd⟩, x, rest', rfl, .of_blockEnd hx⟩
  | behind run =>
    exact ⟨⟨x, rest, rfl, hblockEnd⟩, run.first, _, rfl, ends_of_not_joining run.ends⟩
  | cons hu _ =>
    obtain ⟨t, u, u', rfl, rfl, ht⟩ := hu.start
    exact ⟨⟨t, _, rfl, List.mem_append_left _ ht⟩, t, _, rfl, .of_statementStart ht⟩
  | before run hu _ =>
    obtain ⟨t, u, u', rfl, rfl, ht⟩ := hu.start
    exact ⟨⟨t, _, rfl, List.mem_append_left _ ht⟩, run.first, _, rfl, ends_of_not_joining run.ends⟩

section

variable {stops : List TokenKind} {rest rest' : List Token}
  (hstops : ∀ k ∈ stops, k ∈ TokenKind.blockEnd) (hx : x.kind ∈ stops)

include hstops hx

theorem blocksBeside_cons {u u' v v' : List Token} {runs more : List StrayRun}
    (hu : StrewnStatement u u' runs) (hv : StrewnBlock v v' more)
    (ih : ∀ {s s' : State} {ds : List Diagnostic},
      s.Abreast s' ds (v ++ x :: rest) (v' ++ x :: rest') →
        BlocksBeside (ds ++ more.map StrayRun.diagnostic) (statements stops s).result
          (statements stops s').result (x :: rest) (x :: rest'))
    (h : s.Beside s' ds (u ++ v ++ x :: rest) (u' ++ v' ++ x :: rest')) :
    BlocksBeside (ds ++ (runs ++ more).map StrayRun.diagnostic) (statements stops s).result
      (statements stops s').result (x :: rest) (x :: rest') := by
  have hstarts : ∀ k ∈ TokenKind.statementStart, k ∉ stops := fun k hk hstop =>
    (by decide : ∀ k ∈ TokenKind.statementStart, k ∉ TokenKind.blockEnd) k hk (hstops k hstop)
  rw [List.append_assoc, List.append_assoc] at h
  obtain ⟨⟨y, b, hy, hbehind⟩, y', b', hy', hends⟩ := hv.exists_cons (hstops _ hx) rest rest'
  rw [hy, hy'] at h
  -- The statement ends at what follows it in each of the streams.
  obtain ⟨hafter, halike⟩ := hu.read hbehind hends h
  rw [← hy, ← hy'] at hafter
  obtain ⟨hend, halikes⟩ := ih hafter
  obtain ⟨t, w, w', rfl, rfl, ht⟩ := hu.start
  rw [statements_of_statementStart hstarts (h.kind ▸ ht),
    statements_of_statementStart hstarts (h.kind' ▸ ht), List.map_append, ← List.append_assoc]
  exact ⟨hend, alike_block_cons halike halikes⟩

theorem StrewnBlock.read {w w' : List Token} {runs : List StrayRun} (hblock : StrewnBlock w w' runs)
    (h : s.Abreast s' ds (w ++ x :: rest) (w' ++ x :: rest')) :
    BlocksBeside (ds ++ runs.map StrayRun.diagnostic) (statements stops s).result
      (statements stops s').result (x :: rest) (x :: rest') := by
  have hblockEnd : x.kind ∈ behindStatement := List.mem_append_right _ (hstops _ hx)
  induction hblock generalizing s s' ds with
  | nil =>
    rw [statements_of_stop (.inr (h.kind ▸ hx)), statements_of_stop (.inr (h.kind' ▸ hx)), List.map_nil,
      List.append_nil]
    exact ⟨h.toBeside, rfl⟩
  | behind run =>
    have hskipped := h.skip hblockEnd
    rw [statements_of_stray hstops h.upcoming', statements_of_stop (.inr (h.kind ▸ hx)),
      statements_of_stop (.inr (hskipped.kind' ▸ hx))]
    exact ⟨hskipped, rfl⟩
  | cons hu hv ih => exact blocksBeside_cons hstops hx hu hv ih h.toBeside
  | before run hu hv ih =>
    obtain ⟨t, u, u', rfl, rfl, ht⟩ := hu.start
    rw [List.append_assoc run.tokens, List.append_assoc run.tokens] at h
    have hskipped := h.skip (List.mem_append_left _ ht)
    have hread := blocksBeside_cons hstops hx hu hv ih hskipped
    rw [statements_of_stray hstops h.upcoming', List.cons_append, List.map_cons, List.append_cons]
    exact hread

end

end

end Parser

end PalChecker
