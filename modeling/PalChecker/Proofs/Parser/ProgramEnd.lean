import PalChecker.Proofs.Parser.History
import PalChecker.Proofs.Parser.Lockstep

/-!
# Where a program ends

Whatever goes wrong inside a program, reading stops at the first terminal that ends it. What follows is
not read, and is one error.
-/

namespace PalChecker.Parser

/-! ## A token that nothing passes -/

theorem halts_of_not_inner {x : Token} (hx : ¬x.kind.IsInner) (n : Nonterminal)
    (extra : List TokenKind) : Cursor.Halts (n.syncSet ++ extra) x := by
  by_cases heof : x.kind = .endOfFile
  · exact .inl heof
  · have hend : x.kind = .keyword .endProgram :=
      Decidable.byContradiction fun hend => hx ⟨heof, hend⟩
    refine .inr (List.mem_append_left _ ?_)
    rw [hend]
    exact n.synchronizesOn_endProgram

/-- Both states have the same done and the same ahead of them up to `x`. Behind it they see `Y` and `Y'`. -/
structure State.Fenced (x : Token) (Y Y' : List Token) (s s' : State) : Prop extends
    s.SameHistory s' where
  ahead : ∃ v, (∀ t ∈ v, t.kind.IsInner) ∧ s.upcoming = v ++ x :: Y ∧ s'.upcoming = v ++ x :: Y'

namespace State.Fenced

variable {x : Token} {Y Y' : List Token} {s s' : State}

theorem current_eq (h : s.Fenced x Y Y' s') : s'.current = s.current := by
  obtain ⟨v, -, hs, hs'⟩ := h.ahead
  exact current_eq_of_append hs hs'

theorem behind (hx : ¬x.kind.IsInner) (h : s.Fenced x Y Y' s') (hs : s.kind.IsInner) :
    ∃ v, (∀ t ∈ v, t.kind.IsInner) ∧ s.bump.upcoming = v ++ x :: Y ∧
      s'.bump.upcoming = v ++ x :: Y' := by
  obtain ⟨v, hv, hahead, hahead'⟩ := h.ahead
  cases v with
  | nil =>
    rw [kind_of_upcoming hahead] at hs
    exact absurd hs hx
  | cons t v =>
    obtain ⟨ht, hv⟩ := List.forall_mem_cons.mp hv
    exact ⟨v, hv, upcoming_bump_of_cons hahead ht.1, upcoming_bump_of_cons hahead' ht.1⟩

theorem atDeclaration_iff (hx : ¬x.kind.IsInner) (h : s.Fenced x Y Y' s') :
    AtDeclaration s' ↔ AtDeclaration s := by
  obtain ⟨v, -, hs, hs'⟩ := h.ahead
  rw [Parser.atDeclaration_iff, Parser.atDeclaration_iff, hs, hs']
  cases v with
  | nil =>
    have hne : x.kind ≠ .identifier := by
      intro hname
      rw [hname] at hx
      exact hx (by decide)
    exact iff_of_false (fun h => hne h.1) fun h => hne h.1
  | cons t v => exact declares_append_iff ⟨x, Y', Y, rfl, rfl⟩

theorem synchronize (hx : ¬x.kind.IsInner) (h : s.Fenced x Y Y' s') (n : Nonterminal)
    (extra : List TokenKind) :
    (s.synchronize n extra).Fenced x Y Y' (s'.synchronize n extra) := by
  obtain ⟨v, hv, hs, hs'⟩ := h.ahead
  have hhalts := halts_of_not_inner hx n extra
  have hresumed := upcoming_skipped_of_append hs hhalts
  have hresumed' := upcoming_skipped_of_append hs' hhalts
  refine ⟨h.toSameHistory.synchronize hs hs' hhalts, ?_⟩
  exact ⟨_, fun t ht => hv t (List.dropWhile_subset _ ht), hresumed, hresumed'⟩

end State.Fenced

/-- No move inside a program passes its end, so two runs that differ behind it never part. -/
def fence (x : Token) (hx : ¬x.kind.IsInner) (Y Y' : List Token) : Lockstep where
  names := .identity
  InStep s s' := s.Fenced x Y Y' s'
  Apart _ _ := False
  current_eq h := h.current_eq
  issued_eq h := h.issued_eq
  atDeclaration_iff h := h.atDeclaration_iff hx
  tick h := ⟨h.toSameHistory.tick, h.ahead⟩
  fail n h := ⟨h.toSameHistory.fail h.current_eq n, by simpa only [State.upcoming_fail] using h.ahead⟩
  bump h hs := .inl ⟨h.toSameHistory.bump h.current_eq, h.behind hx hs⟩
  discard h hs := .inl ⟨h.toSameHistory.discard h.current_eq, h.behind hx hs⟩
  synchronize n extra h := .inl (h.synchronize hx n extra)
  later h _ _ := h.elim

/-! ## Statements stop there -/

theorem stopping_statement_rules :
    StatementRules (fun _ _ _ => True) (fun _ _ _ => True) (fun _ _ _ => True) (fun _ _ _ => True)
      (fun _ _ _ => True)
      (fun stops _ _ t => t.kind = .endOfFile ∨ t.kind ∈ stops) where
  assignment _ := fun _ _ => trivial
  target _ := fun _ => trivial
  loop _ _ _ := trivial
  conditional _ _ _ _ := trivial
  alternative _ _ _ _ _ := trivial
  input _ _ := trivial
  output _ _ _ := trivial
  stop h := h
  step _ _ _ rest := rest
  skip _ _ rest := rest

theorem kind_statements (stops : List TokenKind) (s : State) :
    (statements stops s).state.kind = .endOfFile ∨ (statements stops s).state.kind ∈ stops :=
  stopping_statement_rules.run (fun _ => trivial) (fun _ => trivial) (fun _ => trivial)
    (fun _ => trivial) stops s

theorem kind_interior (s : State) : ¬(interiorFrom s).2.kind.IsInner := by
  have hfilled (t : State) (body : List Statement) : (t.filled body).kind = t.kind := by
    cases body with
    | nil => exact t.kind_fail .statement
    | cons first rest => rfl
  unfold interiorFrom
  rw [hfilled]
  intro hinner
  rcases kind_statements [.keyword .endProgram] ((openingFrom s).2.expect (.keyword .inBody) .program).state
    with h | h
  · exact hinner.1 h
  · exact hinner.2 (List.mem_singleton.mp h)

theorem State.Fenced.interior {x : Token} {Y Y' : List Token} {s s' : State} (hx : ¬x.kind.IsInner)
    (h : s.Fenced x Y Y' s') :
    (interiorFrom s').1 = (interiorFrom s).1 ∧ (interiorFrom s).2.SameHistory (interiorFrom s').2 ∧
      (interiorFrom s).2.upcoming = x :: Y ∧ (interiorFrom s').2.upcoming = x :: Y' := by
  obtain ⟨hprogram, hfenced⟩ := (agree_interior (L := fence x hx Y Y') h).resolve_right id
  obtain ⟨v, hv, hahead, hahead'⟩ := hfenced.ahead
  refine ⟨hprogram.trans (Renaming.renamed_program_identity _), hfenced.toSameHistory, ?_⟩
  cases v with
  | nil => exact ⟨hahead, hahead'⟩
  | cons t v =>
    refine absurd (hv t List.mem_cons_self) ?_
    rw [← kind_of_upcoming hahead]
    exact kind_interior s

/-! ## Behind the end -/

/-- What is wrong with tokens that follow a program: the first of them. -/
def trailingErrors (seq : SeqNumber) : List Token → List Finding
  | [] => []
  | t :: _ => if t.kind = .endOfFile then [] else [⟨seq, .syntaxError .program t⟩]

theorem trailingErrors_append (seq : SeqNumber) (tokens : List Token) {closing : Token}
    (h : closing.kind = .endOfFile) :
    trailingErrors seq (tokens ++ [closing]) = trailingErrors seq tokens := by
  cases tokens with
  | nil => exact if_pos h
  | cons t tokens => rfl

theorem errors_ended {s : State} (hs : s.recovering = false) :
    s.ended.errors = s.errors ++ trailingErrors s.nextSeq s.upcoming := by
  obtain ⟨rest, hrest⟩ := s.exists_upcoming
  rw [hrest, trailingErrors]
  by_cases hkind : s.current.kind = .endOfFile
  · rw [if_pos hkind, List.append_nil]
    exact congrArg State.errors (if_pos hkind)
  · rw [if_neg hkind, ← State.errors_fail_of_not_recovering _ hs]
    exact congrArg State.errors (if_neg hkind)

theorem upcoming_ended (s : State) : s.ended.upcoming = s.upcoming :=
  State.ended_rule (P := fun t => t.upcoming = s.upcoming) rfl (s.upcoming_fail .program)

theorem passed_ended (s : State) : s.ended.passed = s.passed :=
  State.ended_rule (P := fun t => t.passed = s.passed) rfl (s.passed_fail .program)

theorem upcoming_ofTokens_append (tokens : List Token) :
    ∃ closing : List Token, (State.ofTokens tokens).upcoming = tokens ++ closing ∧
      (closing = [] ∨ ∃ x : Token, x.kind = .endOfFile ∧ closing = [x]) := by
  rcases Cursor.stream_ofTokens tokens with h | h
  · exact ⟨[], h.trans (List.append_nil _).symm, .inl rfl⟩
  · exact ⟨_, congrArg (· ++ [_]) h, .inr ⟨_, (Cursor.ofTokens tokens).closing_kind, rfl⟩⟩

section

variable {tokens pre rest : List Token}

theorem passed_of_upcoming (hstart : (State.ofTokens tokens).upcoming = pre ++ rest)
    (hend : (parse tokens).final.upcoming = rest) :
    (parse tokens).passed.map Prod.fst = pre ∧ (parse tokens).final.cursor.position = pre.length := by
  have haccurate := accurate_parse tokens
  have hsplit := haccurate.stream_split
  rw [← State.upcoming_ofTokens, hstart, hend] at hsplit
  have hpassed : (parse tokens).passed.map Prod.fst = pre := (List.append_cancel_right hsplit).symm
  refine ⟨hpassed, ?_⟩
  rw [← haccurate.length_passed, ← hpassed, List.length_map]
  rfl

theorem final_eq_interior (tokens : List Token) :
    (parse tokens).final =
      ((interiorFrom (.ofTokens tokens)).2.expect (.keyword .endProgram) .program).state.ended :=
  (Prod.mk.inj ((programFrom_eq_interior _).symm.trans (programFrom_ofTokens tokens))).2.symm

theorem program_eq_interior (tokens : List Token) :
    (parse tokens).program = (interiorFrom (.ofTokens tokens)).1 :=
  (Prod.mk.inj ((programFrom_eq_interior _).symm.trans (programFrom_ofTokens tokens))).1.symm

end

/-- Each construct of the program of `tokens` ends before `stop`, and the program ends right behind it. -/
structure EndsBehind (pre : List Token) (stop : Token) (tokens : List Token) : Prop where
  interior : (interiorFrom (.ofTokens tokens)).2.passed.map Prod.fst = pre
  passed : (parse tokens).passed = (interiorFrom (.ofTokens tokens)).2.passed ++ [(stop, .consumed)]
  position : (parse tokens).final.cursor.position = pre.length + 1

section

variable {tokens pre rest : List Token} {stop : Token}

theorem final_of_interior (hstop : stop.kind = .keyword .endProgram)
    (h : (interiorFrom (.ofTokens tokens)).2.upcoming = stop :: rest) :
    (parse tokens).final = (interiorFrom (.ofTokens tokens)).2.bump.ended := by
  have hkind := (State.kind_of_upcoming h).trans hstop
  have hexpect := Prod.mk.inj (State.expectAny_of_mem .program (List.mem_singleton.mpr hkind))
  rw [final_eq_interior]
  exact congrArg State.ended hexpect.2

theorem endsBehind_of_interior (hstop : stop.kind = .keyword .endProgram)
    (hstart : (State.ofTokens tokens).upcoming = pre ++ stop :: rest)
    (h : (interiorFrom (.ofTokens tokens)).2.upcoming = stop :: rest) :
    EndsBehind pre stop tokens := by
  have hbump := State.upcoming_bump_of_cons h (by rw [hstop]; decide)
  have hfinal := final_of_interior hstop h
  have hpassed : (parse tokens).passed =
      (interiorFrom (.ofTokens tokens)).2.passed ++ [(stop, .consumed)] := by
    rw [Outcome.passed, hfinal, passed_ended, State.passed_bump, State.current_of_upcoming h]
  have hend : (parse tokens).final.upcoming = rest := by
    rw [hfinal, upcoming_ended, hbump]
  have hstart' : (State.ofTokens tokens).upcoming = (pre ++ [stop]) ++ rest :=
    hstart.trans (List.append_cons ..)
  obtain ⟨hall, hposition⟩ := passed_of_upcoming hstart' hend
  rw [hpassed, List.map_append] at hall
  exact ⟨List.append_cancel_right hall, hpassed, hposition.trans (List.length_append ..)⟩

theorem errors_of_interior {post closing : List Token} (hstop : stop.kind = .keyword .endProgram)
    (hclosing : closing = [] ∨ ∃ x : Token, x.kind = .endOfFile ∧ closing = [x])
    (h : (interiorFrom (.ofTokens tokens)).2.upcoming = stop :: (post ++ closing)) :
    (parse tokens).errors =
      (interiorFrom (.ofTokens tokens)).2.bump.errors ++
        trailingErrors (interiorFrom (.ofTokens tokens)).2.nextSeq post := by
  have hbump := State.upcoming_bump_of_cons h (by rw [hstop]; decide)
  have herrors := errors_ended (State.recovering_bump (interiorFrom (.ofTokens tokens)).2)
  have htrailing (seq : SeqNumber) : trailingErrors seq (post ++ closing) = trailingErrors seq post := by
    rcases hclosing with rfl | ⟨x, hx, rfl⟩
    · rw [List.append_nil]
    · exact trailingErrors_append seq post hx
  rw [hbump, htrailing, ← final_of_interior hstop h] at herrors
  exact herrors

theorem nextSeq_of_interior {closing : List Token} (hstop : stop.kind = .keyword .endProgram)
    (hclosing : closing = [] ∨ ∃ x : Token, x.kind = .endOfFile ∧ closing = [x])
    (h : (interiorFrom (.ofTokens tokens)).2.upcoming = stop :: closing) :
    (parse tokens).final.nextSeq = (interiorFrom (.ofTokens tokens)).2.nextSeq := by
  have hbump := State.upcoming_bump_of_cons h (by rw [hstop]; decide)
  have hkind : (interiorFrom (.ofTokens tokens)).2.bump.kind = .endOfFile := by
    rcases hclosing with rfl | ⟨x, hx, rfl⟩
    · obtain ⟨rest, hrest⟩ := (interiorFrom (.ofTokens tokens)).2.bump.exists_upcoming
      cases hbump.symm.trans hrest
    · exact kind_of_upcoming_singleton hbump
  rw [final_of_interior hstop h, show State.ended _ = _ from if_pos hkind]
  rfl

end

/-- Without a terminal that ends the program, its absence is the last error. -/
theorem final_of_no_end {tokens rest : List Token} {x : Token} (hx : x.kind = .endOfFile)
    (h : (interiorFrom (.ofTokens tokens)).2.upcoming = x :: rest) :
    (parse tokens).final =
        (interiorFrom (.ofTokens tokens)).2.recovered .program [.keyword .endProgram] ∧
      (parse tokens).final.upcoming = x :: rest := by
  have hkind := (State.kind_of_upcoming h).trans hx
  have hmissing : (interiorFrom (.ofTokens tokens)).2.kind ∉ [.keyword .endProgram] := by
    rw [hkind]
    decide
  have hfail := State.kind_fail .program (interiorFrom (.ofTokens tokens)).2
  have hrecovered : ((interiorFrom (.ofTokens tokens)).2.recovered .program [.keyword .endProgram]).upcoming =
      x :: rest := by
    rw [State.upcoming_synchronize (.inl (hfail.trans hkind)), State.upcoming_fail, h]
  have hend := (State.kind_of_upcoming hrecovered).trans hx
  have hmissing' : ((interiorFrom (.ofTokens tokens)).2.recovered .program [.keyword .endProgram]).kind ∉
      [.keyword .endProgram] := by
    rw [hend]
    decide
  -- The terminal is missing at once, and again where reading resumes.
  have hexpect := (State.expectAny_of_not_mem .program hmissing).trans (State.eatAny_of_not_mem hmissing')
  have hfinal : (parse tokens).final =
      (interiorFrom (.ofTokens tokens)).2.recovered .program [.keyword .endProgram] := by
    rw [final_eq_interior, State.expect, (Prod.mk.inj hexpect).2]
    exact if_pos hend
  exact ⟨hfinal, hfinal ▸ hrecovered⟩

/-- A program ends at the first terminal that can end it, whatever is wrong before it and whatever
follows. Of what follows only the first token is reported. Without such a terminal everything up to the
end of file is read. -/
theorem program_ends_at_first_end :
    (∀ (pre post : List Token) (stop : Token), (∀ t ∈ pre, t.kind.IsInner) →
      stop.kind = .keyword .endProgram →
        let whole := pre ++ stop :: post
        let alone := pre ++ [stop]
        EndsBehind pre stop whole ∧ (parse whole).program = (parse alone).program ∧
          (parse whole).errors =
            (parse alone).errors ++ trailingErrors (parse alone).final.nextSeq post) ∧
      ∀ tokens : List Token, (∀ t ∈ Token.beforeEnd tokens, t.kind ≠ .keyword .endProgram) →
        (parse tokens).final.cursor.position = (Token.beforeEnd tokens).length ∧
          (parse tokens).final.kind = .endOfFile := by
  constructor
  · intro pre post stop hpre hstop whole alone
    have hx : ¬stop.kind.IsInner := fun h => h.2 hstop
    obtain ⟨closing, hstart, hclosing⟩ := upcoming_ofTokens_append whole
    obtain ⟨closing', hstart', hclosing'⟩ := upcoming_ofTokens_append alone
    rw [show whole = pre ++ stop :: post from rfl, List.append_assoc, List.cons_append] at hstart
    rw [show alone = pre ++ [stop] from rfl, List.append_assoc, List.singleton_append] at hstart'
    -- The two runs share what is before `stop`, and neither reads past it.
    have hfenced : (State.ofTokens whole).Fenced stop (post ++ closing) closing' (.ofTokens alone) :=
      ⟨⟨rfl, rfl, rfl⟩, pre, hpre, hstart, hstart'⟩
    obtain ⟨hprogram, hsame, hahead, hahead'⟩ := hfenced.interior hx
    refine ⟨endsBehind_of_interior hstop hstart hahead, ?_, ?_⟩
    · rw [program_eq_interior, program_eq_interior, hprogram]
    · have hcurrent := State.current_eq_of_append (v := []) hahead hahead'
      have halone : (parse alone).errors =
          (interiorFrom (.ofTokens alone)).2.bump.errors ++ trailingErrors _ [] :=
        errors_of_interior hstop hclosing' hahead'
      rw [errors_of_interior hstop hclosing hahead, halone, nextSeq_of_interior hstop hclosing' hahead',
        hsame.nextSeq_eq, (hsame.bump hcurrent).errors_eq, trailingErrors, List.append_nil]
  · intro tokens hnone
    obtain ⟨x, rest, hx, hstart⟩ := Cursor.exists_endOfFile_ofTokens tokens
    have hbefore : ∀ t ∈ Token.beforeEnd tokens, t.kind.IsInner := by
      intro t ht
      exact ⟨of_decide_eq_true (List.all_eq_true.mp List.all_takeWhile t ht), hnone t ht⟩
    -- Without an end of the program the end of file is the fence, with one run for both.
    have hfenced : (State.ofTokens tokens).Fenced x rest rest (.ofTokens tokens) :=
      ⟨⟨rfl, rfl, rfl⟩, _, hbefore, hstart, hstart⟩
    have hend := (final_of_no_end hx (hfenced.interior fun h => h.1 hx).2.2.1).2
    exact ⟨(passed_of_upcoming hstart hend).2, (State.kind_of_upcoming hend).trans hx⟩

/-- Nothing of a program before the terminal, and one token behind it. -/
theorem program_ends_at_first_end_of_conditional :
    let pre : List Token := [.fixed (.punct .lparen), .fixed (.keyword .ifCond), .fixed (.punct .rparen)]
    let stop : Token := .fixed (.keyword .endProgram)
    let post : List Token := [.fixed (.keyword .endProgram)]
    ((∀ t ∈ pre, t.kind.IsInner) ∧ stop.kind = .keyword .endProgram) ∧
      (EndsBehind pre stop (pre ++ stop :: post) ∧
        (parse (pre ++ stop :: post)).program = (parse (pre ++ [stop])).program ∧
          (parse (pre ++ stop :: post)).errors = (parse (pre ++ [stop])).errors ++
            [⟨(parse (pre ++ [stop])).final.nextSeq, .syntaxError .program stop⟩]) ∧
        (∀ t ∈ Token.beforeEnd pre, t.kind ≠ .keyword .endProgram) ∧
          (parse pre).final.cursor.position = 3 := by
  intro pre stop post
  have hpre : ∀ t ∈ pre, t.kind.IsInner := by decide
  have hnone : ∀ t ∈ Token.beforeEnd pre, t.kind ≠ .keyword .endProgram := by decide
  exact ⟨⟨hpre, rfl⟩, program_ends_at_first_end.1 pre post stop hpre rfl, hnone,
    (program_ends_at_first_end.2 pre hnone).1⟩

end PalChecker.Parser
