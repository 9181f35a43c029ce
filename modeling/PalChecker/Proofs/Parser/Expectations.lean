import PalChecker.Proofs.Parser.Progress
import PalChecker.Proofs.Token.Positions

/-!
# Consuming or recovering

A construct expects its terminals one after the other. A terminal that is there is consumed. If it is missing
that is one error, unless an earlier one is still being recovered from, and then reading resumes at the first
token that was expected, that the construct synchronizes on, or that ends the file.
-/

namespace PalChecker

/-- No end of file was passed. -/
def Cursor.NotPastEnd (c : Cursor) : Prop := ∀ t ∈ c.passed, t.kind ≠ .endOfFile

namespace Cursor.NotPastEnd

variable {c : Cursor}

theorem advance (h : c.NotPastEnd) (hkind : c.kind ≠ .endOfFile) : c.advance.NotPastEnd := by
  unfold NotPastEnd
  rw [passed_advance hkind, List.forall_mem_cons]
  exact ⟨hkind, h⟩

theorem skipUntil (h : c.NotPastEnd) (stops : List TokenKind) : (c.skipUntil stops).NotPastEnd := by
  intro t ht
  rcases List.mem_append.mp ht with ht | ht
  · exact fun hend => c.not_halts_of_mem_skipped (List.mem_reverse.mp ht) (.inl hend)
  · exact h t ht

end Cursor.NotPastEnd

namespace Parser

/-! ## Where reading resumes -/

/-- A token at which `n` resumes if one of `kinds` is missing. -/
def Resumes (kinds : List TokenKind) (n : Nonterminal) (t : Token) : Prop :=
  t.kind ∈ kinds ∨ n.SynchronizesOn t.kind ∨ t.kind = .endOfFile

instance (kinds : List TokenKind) (n : Nonterminal) (t : Token) : Decidable (Resumes kinds n t) :=
  inferInstanceAs (Decidable (_ ∨ _ ∨ _))

theorem halts_iff_resumes (kinds : List TokenKind) (n : Nonterminal) (t : Token) :
    Cursor.Halts (n.syncSet ++ kinds) t ↔ Resumes kinds n t := by
  unfold Cursor.Halts Resumes Nonterminal.SynchronizesOn
  rw [List.mem_append, or_comm, or_comm (a := t.kind ∈ n.syncSet), or_assoc]

namespace State

variable (kinds : List TokenKind) (n : Nonterminal) (s : State)

theorem cursor_recovered :
    (s.recovered n kinds).cursor = s.cursor.skipUntil (n.syncSet ++ kinds) :=
  congrArg (Cursor.skipUntil _) (s.cursor_fail n)

theorem firstAt_recovered :
    s.cursor.FirstAt (Resumes kinds n) (s.recovered n kinds).cursor.position
      (s.recovered n kinds).current := by
  have hfirst := s.cursor.firstAt_skipUntil (n.syncSet ++ kinds)
  rw [funext fun t => propext (halts_iff_resumes kinds n t), ← Cursor.position_skipUntil,
    ← cursor_recovered] at hfirst
  exact hfirst

theorem position_bump {s : State} (h : s.kind ≠ .endOfFile) :
    s.bump.cursor.position = s.cursor.position + 1 :=
  congrArg List.length (Cursor.passed_advance h)

/-! ## What is reported -/

/-- One error of `n` blames the current token, or none while an earlier one is being recovered from. -/
structure ReportsOnce (t : State) : Prop where
  reported : s.recovering = false →
    t.errors = s.errors ++ [⟨s.nextSeq, .syntaxError n s.current⟩] ∧ t.issued = s.issued + 1
  suppressed : s.recovering = true → t.errors = s.errors ∧ t.issued = s.issued

theorem reportsOnce_recovered : s.ReportsOnce n (s.recovered n kinds) where
  reported h := ⟨(errors_synchronize ..).trans (errors_fail_of_not_recovering n h),
    issued_fail_of_not_recovering n h⟩
  suppressed h := ⟨(errors_synchronize ..).trans (errors_fail_of_recovering n h),
    issued_fail_of_recovering n h⟩

variable {kinds n s}

theorem ReportsOnce.bump {t : State} (h : s.ReportsOnce n t) : s.ReportsOnce n t.bump where
  reported hs := by
    rw [errors_bump, issued_bump]
    exact h.reported hs
  suppressed hs := by
    rw [errors_bump, issued_bump]
    exact h.suppressed hs

/-! ## What expecting gives and leaves -/

/-- One of `kinds` was expected at `s` and `value` was got, if reading resumes first at `x`, which stands
at `q`. -/
structure ConsumesOrRecovers (kinds : List TokenKind) (n : Nonterminal) (s : State) (q : Nat) (x : Token)
    (value : Option Token) (t : State) : Prop where
  stream_eq : t.cursor.stream = s.cursor.stream
  journal_kept : s.journal <:+ t.journal
  not_past_end : s.cursor.NotPastEnd → t.cursor.NotPastEnd
  consumed : s.kind ∈ kinds → value = some s.current ∧ t.cursor.position = s.cursor.position + 1 ∧
    t.recovering = false ∧ t.errors = s.errors ∧ t.issued = s.issued
  reports : s.kind ∉ kinds → s.ReportsOnce n t
  resumed : s.kind ∉ kinds → x.kind ∈ kinds →
    value = some x ∧ t.cursor.position = q + 1 ∧ t.recovering = false
  missing : s.kind ∉ kinds → x.kind ∉ kinds →
    value = none ∧ t.cursor.position = q ∧ t.recovering = true

theorem consumesOrRecovers_bump (heof : .endOfFile ∉ kinds) (h : s.kind ∈ kinds) (q : Nat) (x : Token) :
    ConsumesOrRecovers kinds n s q x (some s.current) s.bump where
  stream_eq := s.cursor.stream_advance
  journal_kept := (Precedes.refl s).bump.1
  not_past_end hs := hs.advance fun hend => heof (hend ▸ h)
  consumed _ := ⟨rfl, position_bump fun hend => heof (hend ▸ h), rfl, s.errors_bump, s.issued_bump⟩
  reports hnot := absurd h hnot
  resumed hnot := absurd h hnot
  missing hnot := absurd h hnot

theorem consumesOrRecovers_recovered (h : s.kind ∉ kinds) (hx : (s.recovered n kinds).kind ∉ kinds) :
    ConsumesOrRecovers kinds n s (s.recovered n kinds).cursor.position (s.recovered n kinds).current none
      (s.recovered n kinds) where
  stream_eq := by rw [cursor_recovered, Cursor.stream_skipUntil]
  journal_kept := ((Precedes.refl s).recovered n kinds).1
  not_past_end hs := by
    rw [cursor_recovered]
    exact hs.skipUntil _
  consumed hmem := absurd hmem h
  reports _ := reportsOnce_recovered kinds n s
  resumed _ hmem := absurd hmem hx
  missing _ _ := ⟨rfl, rfl, recovering_fail n s⟩

theorem consumesOrRecovers_resumed (heof : .endOfFile ∉ kinds) (h : s.kind ∉ kinds)
    (hx : (s.recovered n kinds).kind ∈ kinds) :
    ConsumesOrRecovers kinds n s (s.recovered n kinds).cursor.position (s.recovered n kinds).current
      (some (s.recovered n kinds).current) (s.recovered n kinds).bump where
  stream_eq := by rw [cursor_bump, Cursor.stream_advance, cursor_recovered, Cursor.stream_skipUntil]
  journal_kept := ((Precedes.refl s).recovered n kinds).bump.1
  not_past_end hs := by
    have hrecovered : (s.recovered n kinds).cursor.NotPastEnd := by
      rw [cursor_recovered]
      exact hs.skipUntil _
    exact hrecovered.advance fun hend => heof (hend ▸ hx)
  consumed hmem := absurd hmem h
  reports _ := (reportsOnce_recovered kinds n s).bump
  resumed _ _ := ⟨rfl, position_bump fun hend => heof (hend ▸ hx), rfl⟩
  missing _ hnot := absurd hx hnot

end State

open State

/-- Reading resumes at one place, and a token of `kinds` is consumed at once or there, or else it is
missing. -/
theorem expecting_consumes_or_recovers {kinds : List TokenKind} (heof : .endOfFile ∉ kinds)
    (n : Nonterminal) (s : State) :
    (∃ q x, s.cursor.FirstAt (Resumes kinds n) q x) ∧
      ∀ q x, s.cursor.FirstAt (Resumes kinds n) q x →
        ConsumesOrRecovers kinds n s q x (s.expectAny kinds n).value (s.expectAny kinds n).state := by
  have hfirst := firstAt_recovered kinds n s
  refine ⟨⟨_, _, hfirst⟩, fun q x h => ?_⟩
  obtain ⟨rfl, rfl⟩ := h.unique hfirst
  by_cases hkind : s.kind ∈ kinds
  · obtain ⟨hvalue, hstate⟩ := Prod.mk.inj (expectAny_of_mem n hkind)
    rw [hvalue, hstate]
    exact consumesOrRecovers_bump heof hkind _ _
  · -- Where recovery stops a token of `kinds` gets a second chance.
    obtain ⟨hvalue, hstate⟩ := Prod.mk.inj (expectAny_of_not_mem n hkind)
    rw [hvalue, hstate]
    exact eatAny_rule (P := ConsumesOrRecovers kinds n s _ _) (consumesOrRecovers_resumed heof hkind)
      (consumesOrRecovers_recovered hkind)

/-- Where `THEN` is expected, a star and a slash are one error and are dropped, and `THEN` is consumed
behind them. -/
theorem expecting_consumes_or_recovers_of_star :
    let star : Token := .fixed (.punct .star)
    let opening : Token := .fixed (.keyword .thenBranch)
    let kinds : List TokenKind := [.keyword .thenBranch]
    let s := State.ofTokens [star, .fixed (.punct .slash), opening]
    let read := s.expectAny kinds .conditional
    (.endOfFile ∉ kinds ∧ s.cursor.FirstAt (Resumes kinds .conditional) 2 opening) ∧
      read.value = some opening ∧ read.state.cursor.position = 3 ∧
        read.state.errors = [⟨0, .syntaxError .conditional star⟩] ∧ read.state.recovering = false := by
  intro star opening kinds s read
  have heof : .endOfFile ∉ kinds := by decide
  have hfirst : s.cursor.FirstAt (Resumes kinds .conditional) 2 opening := by
    refine ⟨by decide, by decide, .inl (by decide), fun i t _ hi ht => ?_⟩
    match i with
    | 0 | 1 =>
      cases ht
      decide
  obtain ⟨-, hread⟩ := expecting_consumes_or_recovers heof .conditional s
  have hkind : s.kind ∉ kinds := by decide
  obtain ⟨hvalue, hposition, hrecovering⟩ := (hread 2 opening hfirst).resumed hkind (by decide)
  exact ⟨⟨heof, hfirst⟩, hvalue, hposition, (((hread 2 opening hfirst).reports hkind).reported rfl).1,
    hrecovering⟩

end Parser

end PalChecker
