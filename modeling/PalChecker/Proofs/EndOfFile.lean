import PalChecker.Analysis
import PalChecker.Proofs.Parser.ProgramEnd

/-!
# Nothing is read behind an end of file

A stream may go on behind an end of file, and the cursor would follow it up to its last token. A parse
never asks it to: it ends at the terminal of the program or at the first end of file, whichever comes
first.
-/

namespace PalChecker

namespace Parser

/-! ## Two streams up to an end of file -/

namespace State.SameHistory

variable {s s' : State}

theorem ended (h : s.SameHistory s') (hcurrent : s'.current = s.current) :
    s.ended.SameHistory s'.ended := by
  unfold State.ended
  by_cases hend : s.kind = .endOfFile
  · rw [if_pos hend, if_pos ((kind_eq_of_current hcurrent).trans hend)]
    exact h
  · rw [if_neg hend, if_neg (kind_eq_of_current hcurrent ▸ hend)]
    exact h.fail hcurrent .program

theorem recovered (h : s.SameHistory s') {x : Token} {Y Y' : List Token} (hx : x.kind = .endOfFile)
    (hs : s.upcoming = x :: Y) (hs' : s'.upcoming = x :: Y') (n : Nonterminal) (kinds : List TokenKind) :
    (s.recovered n kinds).SameHistory (s'.recovered n kinds) := by
  have hfail := h.fail (current_eq_of_append (v := []) hs hs') n
  exact hfail.synchronize (v := []) ((upcoming_fail n s).trans hs) ((upcoming_fail n s').trans hs') (.inl hx)

end State.SameHistory

theorem inner_or_exists_end {pre : List Token} (hpre : ∀ t ∈ pre, t.kind ≠ .endOfFile) :
    (∀ t ∈ pre, t.kind.IsInner) ∨
      ∃ a x b, pre = a ++ x :: b ∧ (∀ t ∈ a, t.kind.IsInner) ∧ x.kind = .keyword .endProgram := by
  induction pre with
  | nil => exact .inl fun t ht => absurd ht List.not_mem_nil
  | cons t pre ih =>
    obtain ⟨ht, hpre'⟩ := List.forall_mem_cons.mp hpre
    by_cases hend : t.kind = .keyword .endProgram
    · exact .inr ⟨[], t, pre, rfl, fun t ht => absurd ht List.not_mem_nil, hend⟩
    · have hinner : t.kind.IsInner := ⟨ht, hend⟩
      rcases ih hpre' with h | ⟨a, x, b, rfl, ha, hx⟩
      · exact .inl (List.forall_mem_cons.mpr ⟨hinner, h⟩)
      · exact .inr ⟨t :: a, x, b, rfl, List.forall_mem_cons.mpr ⟨hinner, ha⟩, hx⟩

/-- Two runs that read the same and did the same, and passed no other tokens than `pre`. -/
structure AgreeWithin (pre : List Token) (o o' : Outcome) : Prop where
  program_eq : o'.program = o.program
  history : o.final.SameHistory o'.final
  passed : o.passed.map Prod.fst <+: pre

section

variable {pre tokens tokens' Y Y' : List Token} {x : Token}

theorem fenced_ofTokens (hpre : ∀ t ∈ pre, t.kind.IsInner)
    (h : (State.ofTokens tokens).upcoming = pre ++ x :: Y)
    (h' : (State.ofTokens tokens').upcoming = pre ++ x :: Y') :
    (State.ofTokens tokens).Fenced x Y Y' (.ofTokens tokens') :=
  ⟨⟨rfl, rfl, rfl⟩, pre, hpre, h, h'⟩

theorem agree_without_end (hpre : ∀ t ∈ pre, t.kind.IsInner) (hx : x.kind = .endOfFile)
    (h : (State.ofTokens tokens).upcoming = pre ++ x :: Y)
    (h' : (State.ofTokens tokens').upcoming = pre ++ x :: Y') :
    AgreeWithin pre (parse tokens) (parse tokens') := by
  obtain ⟨hprogram, hsame, hahead, hahead'⟩ :=
    (fenced_ofTokens hpre h h').interior fun hinner => hinner.1 hx
  obtain ⟨hfinal, hend⟩ := final_of_no_end hx hahead
  obtain ⟨hfinal', -⟩ := final_of_no_end hx hahead'
  constructor
  case program_eq => rw [program_eq_interior, program_eq_interior, hprogram]
  case history =>
    rw [hfinal, hfinal']
    exact hsame.recovered hx hahead hahead' .program _
  case passed => exact (passed_of_upcoming h hend).1 ▸ List.prefix_rfl

theorem agree_behind_end {a b : List Token} {y : Token} (ha : ∀ t ∈ a, t.kind.IsInner)
    (hx : x.kind = .keyword .endProgram)
    (h : (State.ofTokens tokens).upcoming = a ++ x :: (b ++ y :: Y))
    (h' : (State.ofTokens tokens').upcoming = a ++ x :: (b ++ y :: Y')) :
    AgreeWithin (a ++ x :: b) (parse tokens) (parse tokens') := by
  obtain ⟨hprogram, hsame, hahead, hahead'⟩ :=
    (fenced_ofTokens ha h h').interior fun hinner => hinner.2 hx
  have hends := endsBehind_of_interior hx h hahead
  have hne : x.kind ≠ .endOfFile := by
    rw [hx]
    decide
  have hbump := State.upcoming_bump_of_cons hahead hne
  have hbump' := State.upcoming_bump_of_cons hahead' hne
  constructor
  case program_eq => rw [program_eq_interior, program_eq_interior, hprogram]
  case history =>
    -- The terminal is consumed in both runs, and behind it both see the same token.
    rw [final_of_interior hx hahead, final_of_interior hx hahead']
    have hconsumed := hsame.bump (State.current_eq_of_append (v := []) hahead hahead')
    exact hconsumed.ended (State.current_eq_of_append hbump hbump')
  case passed =>
    rw [hends.passed, List.map_append, hends.interior]
    exact ⟨b, by simp⟩

theorem agree_to_endOfFile (hpre : ∀ t ∈ pre, t.kind ≠ .endOfFile) (hx : x.kind = .endOfFile)
    (h : (State.ofTokens tokens).upcoming = pre ++ x :: Y)
    (h' : (State.ofTokens tokens').upcoming = pre ++ x :: Y') :
    AgreeWithin pre (parse tokens) (parse tokens') := by
  rcases inner_or_exists_end hpre with hinner | ⟨a, stop, b, rfl, ha, hstop⟩
  · exact agree_without_end hinner hx h h'
  · rw [List.append_assoc, List.cons_append] at h h'
    exact agree_behind_end ha hstop h h'

end

namespace AgreeWithin

variable {pre : List Token} {o o' : Outcome}

theorem actions_eq (h : AgreeWithin pre o o') : o'.actions = o.actions :=
  congrArg List.reverse h.history.journal_eq

theorem errors_eq (h : AgreeWithin pre o o') : o'.errors = o.errors :=
  congrArg (List.filterMap Action.finding?) h.actions_eq

theorem trace_eq (h : AgreeWithin pre o o') : o'.trace = o.trace := by
  unfold Outcome.trace Outcome.summary
  rw [h.actions_eq, h.errors_eq, h.program_eq]

end AgreeWithin

theorem position_le_of_passed {tokens pre : List Token}
    (h : (parse tokens).passed.map Prod.fst <+: pre) :
    (parse tokens).final.cursor.position ≤ pre.length := by
  have hlength := h.length_le
  rw [List.length_map] at hlength
  rw [← (accurate_parse tokens).length_passed]
  exact hlength

theorem passed_prefix_beforeEnd (tokens : List Token) :
    (parse tokens).passed.map Prod.fst <+: Token.beforeEnd tokens := by
  obtain ⟨x, rest, hx, hstart⟩ := Cursor.exists_endOfFile_ofTokens tokens
  have hinside : ∀ t ∈ Token.beforeEnd tokens, t.kind ≠ .endOfFile :=
    fun _ => Token.ne_endOfFile_of_mem_beforeEnd
  exact (agree_to_endOfFile hinside hx hstart hstart).passed

end Parser

open PalChecker.Parser (parse agree_to_endOfFile position_le_of_passed upcoming_ofTokens_append)

/-- What follows the first end of file changes nothing: the same program is read by the same actions, with
the same errors and diagnostics and the same trace, and no token from the end of file on is passed. -/
theorem nothing_is_read_behind_end_of_file {pre : List Token} {stop : Token}
    (hpre : ∀ t ∈ pre, t.kind ≠ .endOfFile) (hstop : stop.kind = .endOfFile) (rest : List Token) :
    let whole := pre ++ stop :: rest
    let alone := pre ++ [stop]
    ((parse whole).program = (parse alone).program ∧ (parse whole).errors = (parse alone).errors ∧
        (parse whole).actions = (parse alone).actions) ∧
      ((parse whole).passed.map Prod.fst <+: pre ∧
        (parse whole).final.cursor.position ≤ pre.length) ∧
      Analysis.diagnostics whole = Analysis.diagnostics alone ∧
        Analysis.trace whole = Analysis.trace alone := by
  intro whole alone
  obtain ⟨closing, hwhole, -⟩ := upcoming_ofTokens_append whole
  obtain ⟨closing', halone, -⟩ := upcoming_ofTokens_append alone
  rw [show whole = pre ++ stop :: rest from rfl, List.append_assoc, List.cons_append] at hwhole
  rw [show alone = pre ++ [stop] from rfl, List.append_assoc, List.singleton_append] at halone
  have hagree : Parser.AgreeWithin pre (parse whole) (parse alone) :=
    agree_to_endOfFile hpre hstop hwhole halone
  have hprogram := hagree.program_eq
  have herrors := hagree.errors_eq
  refine ⟨⟨hprogram.symm, herrors.symm, hagree.actions_eq.symm⟩,
    ⟨hagree.passed, position_le_of_passed hagree.passed⟩, ?_, ?_⟩
  · simp only [Analysis.diagnostics, hprogram, herrors]
  · simp only [Analysis.trace, hprogram, hagree.trace_eq]

/-- The end of file stands behind a name where another group may begin. The equals sign that follows it does
not make the name the target of an assignment. -/
theorem nothing_is_read_behind_end_of_file_of_group :
    let pre : List Token :=
      [⟨.identifier, "a", .start⟩, .fixed (.keyword .as), .fixed (.keyword .real), ⟨.identifier, "b", .start⟩]
    let stop : Token := .endOfFile .start
    let rest : List Token := [.fixed (.punct .equals), .fixed (.keyword .endProgram)]
    ((∀ t ∈ pre, t.kind ≠ .endOfFile) ∧ stop.kind = .endOfFile) ∧
      (parse (pre ++ stop :: rest)).program = (parse (pre ++ [stop])).program ∧
        (parse (pre ++ stop :: rest)).final.cursor.position ≤ 4 ∧
          Analysis.diagnostics (pre ++ stop :: rest) = Analysis.diagnostics (pre ++ [stop]) := by
  intro pre stop rest
  have hpre : ∀ t ∈ pre, t.kind ≠ .endOfFile := by decide
  have hstop : stop.kind = .endOfFile := rfl
  have h := nothing_is_read_behind_end_of_file hpre hstop rest
  exact ⟨⟨hpre, hstop⟩, h.1.1, h.2.1.2, h.2.2.1⟩

end PalChecker
