import PalChecker.Proofs.EndOfFile
import PalChecker.Proofs.Parser.Blame
import PalChecker.Proofs.Parser.ViablePrefix
import PalChecker.Proofs.Syntax.Places

/-!
# Programs that are cut off

A sentence that is cut off is consumed up to the cut, and there the end of file is reported. What is still
open then is given up without another error, since no token is left to be consumed.
-/

namespace PalChecker.Grammar

/-! ## A sentence ends once -/

/-- `k` stands in no word of the rule, if it stands in no word of a construct but the program. -/
def Rule.lacks (k : TokenKind) : Rule → Bool
  | token kinds => k ∉ kinds
  | empty => true
  | sequence a b | either a b => a.lacks k && b.lacks k
  | many body => body.lacks k
  | construct c => c ≠ .program

theorem Construct.rule_lacks_end {c : Construct} (h : c ≠ .program) :
    c.rule.lacks (.keyword .endProgram) = true := by
  cases c with
  | program => exact absurd rfl h
  | group | statement | condition | expression | term | factor => decide

theorem Derives.end_not_mem {r : Rule} {w : List TokenKind} (h : Derives r w)
    (hr : r.lacks (.keyword .endProgram) = true) : .keyword .endProgram ∉ w := by
  induction h with
  | token hk =>
    rintro hend
    rw [List.mem_singleton.mp hend] at hr
    exact of_decide_eq_true hr hk
  | empty | none => exact List.not_mem_nil
  | sequence _ _ ihfirst ihrest =>
    obtain ⟨hfirst, hrest⟩ := (Bool.and_eq_true ..).mp hr
    exact fun hend => (List.mem_append.mp hend).elim (ihfirst hfirst) (ihrest hrest)
  | left _ ih => exact ih ((Bool.and_eq_true ..).mp hr).1
  | right _ ih => exact ih ((Bool.and_eq_true ..).mp hr).2
  | more _ _ ihfirst ihrest =>
    exact fun hend => (List.mem_append.mp hend).elim (ihfirst hr) (ihrest hr)
  | construct _ ih => exact ih (Construct.rule_lacks_end (of_decide_eq_true hr))

theorem Derives.exists_last (parts : List Rule) {k : TokenKind} {w : List TokenKind}
    (h : Derives (.inOrder (parts ++ [.token [k]])) w) :
    ∃ u, w = u ++ [k] ∧ Derives (.inOrder parts) u := by
  induction parts generalizing w with
  | nil =>
    cases h with
    | sequence hlast hnone =>
      cases hlast with
      | token hk =>
        cases hnone
        exact ⟨[], congrArg ([·]) (List.mem_singleton.mp hk), .empty⟩
  | cons part parts ih =>
    cases h with
    | sequence hpart hrest =>
      obtain ⟨u, rfl, hu⟩ := ih hrest
      exact ⟨_, (List.append_assoc ..).symm, .sequence hpart hu⟩

theorem Construct.Derives.exists_end {w : List TokenKind} (h : Construct.program.Derives w) :
    ∃ u, w = u ++ [.keyword .endProgram] ∧ .keyword .endProgram ∉ u := by
  cases h with
  | construct h =>
    obtain ⟨u, rfl, hu⟩ := Grammar.Derives.exists_last [.keyword .program, .token [.identifier],
      .keyword .withDecls, .some (.construct .group), .keyword .inBody, .some (.construct .statement)] h
    exact ⟨u, rfl, hu.end_not_mem (by decide)⟩

theorem Construct.Derives.not_cut {u v : List TokenKind} (h : Construct.program.Derives (u ++ v))
    (hv : v ≠ []) : ¬Construct.program.Derives u := by
  intro hu
  obtain ⟨a, rfl, -⟩ := hu.exists_end
  obtain ⟨b, hb, hnone⟩ := h.exists_end
  rw [← List.dropLast_concat_getLast hv, ← List.append_assoc] at hb
  obtain ⟨rfl, -⟩ := List.append_inj' hb rfl
  -- The terminal that ends the first sentence stands inside of the longer one.
  exact hnone (List.mem_append_left _ (List.mem_append_right _ List.mem_cons_self))

theorem Viable.of_prefix {u v : List TokenKind} (h : Viable v) (huv : u <+: v) : Viable u := by
  obtain ⟨w, hw, hvw⟩ := h
  exact ⟨w, hw, huv.trans hvw⟩

end PalChecker.Grammar

namespace PalChecker.Parser

open Grammar (Derives Construct Viable)

/-! ## An error ahead of all tokens -/

/-- An error ahead of all tokens that are ever passed is the last one. -/
theorem Orderly.last {recovering : Bool} {fates : List Fate} (places : List Nat) {more : List Nat} {place : Nat}
    (h : Orderly recovering fates (places ++ place :: more)) (hplace : fates.length ≤ place) :
    more = [] := by
  cases more with
  | nil => rfl
  | cons next more =>
    have hincreasing := (List.pairwise_append.mp h.increasing).2.1
    have hlt : place < next := (List.pairwise_cons.mp hincreasing).1 next List.mem_cons_self
    have hle := (h.place_le next (by simp)).1
    omega

namespace State

variable {s t : State} {u : List Token}

theorem passedIn_consumed (u : List Token) :
    passedIn (u.map Action.consumed).reverse = u.map (·, .consumed) := by
  induction u with
  | nil => rfl
  | cons x u ih =>
    rw [List.map_cons, List.reverse_cons, passedIn_append, ih]
    rfl

theorem Passes.passed (h : s.Passes u t) : t.passed = s.passed ++ u.map (·, .consumed) := by
  unfold State.passed
  rw [h.journal, passedIn_append, passedIn_consumed]

theorem FailsAfter.located (h : s.FailsAfter u t) (hs : s.recovering = false) (hjournal : s.journal = []) :
    ∃ f more, t.located = (u.length, f) :: more := by
  obtain ⟨m, n, hpasses, hfail⟩ := h
  obtain ⟨more, hmore, -⟩ := hfail.located
  have hpassed : m.passed.length = u.length := by
    rw [hpasses.passed, State.passed, hjournal]
    exact List.length_map _
  -- Up to there everything was consumed, and nothing was reported.
  have hnone : m.located = [] := by
    refine List.map_eq_nil_iff.mp (m.errors_located.trans (hpasses.errors.trans ?_))
    rw [State.errors, hjournal]
    rfl
  rw [located_fail_of_not_recovering n (hpasses.not_recovering hs), hnone, hpassed] at hmore
  exact ⟨_, more, hmore⟩

end State

theorem located_of_failsAfter {tokens : List Token}
    (h : (State.ofTokens tokens).FailsAfter (Token.beforeEnd tokens) (parse tokens).final) :
    ∃ f, (parse tokens).located = [((Token.beforeEnd tokens).length, f)] := by
  obtain ⟨f, more, hlocated⟩ := h.located rfl rfl
  have horderly : (parse tokens).final.IsOrderly := (builds_parse tokens).isOrderly .start
  have hpassed : (parse tokens).final.fates.length ≤ (Token.beforeEnd tokens).length := by
    have hle := (passed_prefix_beforeEnd tokens).length_le
    rw [List.length_map] at hle
    exact Nat.le_trans (Nat.le_of_eq (List.length_map _)) hle
  unfold State.IsOrderly at horderly
  rw [hlocated] at horderly
  have hnone : more = [] := List.map_eq_nil_iff.mp (horderly.last [] hpassed)
  exact ⟨f, hnone ▸ hlocated⟩

/-! ## Up to the cut -/

/-- A token inside what a sentence begins with is not the first to be reported, though an end of file
follows. -/
theorem not_firstReports_of_viable {tokens u z rest : List Token} {found x : Token} {seq : SeqNumber}
    {n : Nonterminal} (hx : x.kind = .endOfFile)
    (hstream : (Cursor.ofTokens tokens).stream = u ++ found :: (z ++ x :: rest))
    (hviable : Viable ((u ++ found :: z).map Token.kind)) : ¬FirstReports tokens u seq n found := by
  intro hreports
  rw [List.map_append, List.map_cons] at hviable
  by_cases htarget : TargetAfterGroup u found (z ++ x :: rest)
  · -- The equals sign stands before the end of file, so it is among the tokens of the sentence.
    obtain ⟨hopening, hfound, y, hy, hequals⟩ := htarget
    cases z with
    | nil =>
      cases hy
      cases hx.symm.trans hequals
    | cons y z =>
      cases hy
      refine not_viable_of_firstReports [.punct .equals] hstream hreports (fun _ more => ?_) ?_
      · exact iff_of_false (fun h => h.2 _ rfl rfl) fun h => h.2 y rfl hequals
      · refine hviable.of_prefix ⟨z.map Token.kind, ?_⟩
        rw [List.map_cons, hequals, List.append_assoc, List.cons_append, List.singleton_append]
  · refine not_viable_of_firstReports [] hstream hreports (fun hopening more => ?_) ?_
    · by_cases hfound : found.kind = .identifier
      · have hdeclares := declares_of_not_target hopening hfound htarget
        exact absurd hreports (not_firstReports_of_declares hstream hopening hdeclares)
      · exact iff_of_false (fun h => hfound h.1) fun h => hfound h.1
    · exact hviable.of_prefix ⟨z.map Token.kind, List.append_assoc ..⟩

theorem eq_beforeEnd_of_firstReports {tokens u rest : List Token} {found : Token} {seq : SeqNumber}
    {n : Nonterminal} (hviable : Viable ((Token.beforeEnd tokens).map Token.kind))
    (hu : ∀ t ∈ u, t.kind ≠ .endOfFile) (hstream : (Cursor.ofTokens tokens).stream = u ++ found :: rest)
    (hreports : FirstReports tokens u seq n found) :
    u = Token.beforeEnd tokens ∧ found.kind = .endOfFile := by
  obtain ⟨x, behind, hx, hstart⟩ := Cursor.exists_endOfFile_ofTokens tokens
  have hsplit : Token.beforeEnd tokens ++ x :: behind = u ++ found :: rest := by
    rw [← hstart, ← hstream, Cursor.stream, Cursor.passed_ofTokens]
    rfl
  rcases Grammar.append_eq_append_cons hsplit with ⟨z, hbefore, rfl⟩ | ⟨z, rfl, hrest⟩
  · -- An error inside would come too early, for the tokens up to there can go on.
    rw [hbefore] at hviable
    exact absurd hreports (not_firstReports_of_viable hx hstream hviable)
  · cases z with
    | nil =>
      -- The blamed token is the end of file itself.
      obtain ⟨rfl, -⟩ := List.cons.inj hrest
      exact ⟨List.append_nil _, hx⟩
    | cons y z =>
      obtain ⟨rfl, -⟩ := List.cons.inj hrest
      exact absurd hx (hu x (List.mem_append_right _ List.mem_cons_self))

theorem errors_ne_nil_of_cut {tokens : List Token} {w : List TokenKind} (hw : Construct.program.Derives w)
    (hbegins : (Token.beforeEnd tokens).map Token.kind <+: w)
    (hne : (Token.beforeEnd tokens).map Token.kind ≠ w) : (parse tokens).errors ≠ [] := by
  intro hclean
  obtain ⟨rest, rfl⟩ := hbegins
  have hrest : rest ≠ [] := fun hnil => hne (by rw [hnil, List.append_nil])
  exact hw.not_cut hrest ((Grammar.derives_iff_exists_canonical _).mpr ⟨_, canonical_of_clean hclean⟩)

/-- A sentence that is cut off, wherever that may be, has one error. All its tokens are consumed before,
and the error blames the end of file behind them. -/
theorem cut_sentence_is_one_error_at_its_end {tokens : List Token} {w : List TokenKind}
    (hw : Construct.program.Derives w) (hbegins : (Token.beforeEnd tokens).map Token.kind <+: w)
    (hne : (Token.beforeEnd tokens).map Token.kind ≠ w) :
    ∃ seq n found, found.kind = .endOfFile ∧
      (parse tokens).errors = [⟨seq, .syntaxError n found⟩] ∧
        (parse tokens).located = [((Token.beforeEnd tokens).length, ⟨seq, .syntaxError n found⟩)] ∧
          FirstReports tokens (Token.beforeEnd tokens) seq n found := by
  obtain ⟨u, v, hfails, hderives⟩ :=
    (advances_parse tokens).failed rfl (errors_ne_nil_of_cut hw hbegins hne)
  obtain ⟨seq, n, found, rest, hstream, hreports⟩ := firstReports_of_failsAfter hfails
  have hinside (t : Token) (ht : t ∈ u) : t.kind ≠ .endOfFile :=
    Grammar.ne_endOfFile_of_derives hderives _ (List.mem_append_left _ (List.mem_map_of_mem ht))
  have hviable : Viable ((Token.beforeEnd tokens).map Token.kind) :=
    ⟨w, hw, hbegins.trans (List.prefix_append _ _)⟩
  obtain ⟨rfl, hfound⟩ := eq_beforeEnd_of_firstReports hviable hinside hstream hreports
  obtain ⟨f, hlocated⟩ := located_of_failsAfter hfails
  have herrors : (parse tokens).errors = [f] := by
    rw [← (locatesErrors_parse tokens).errors, hlocated]
    rfl
  have hhead := hreports.head?_errors
  rw [herrors] at hhead
  obtain rfl := Option.some.inj hhead
  exact ⟨seq, n, found, hfound, herrors, hlocated, hreports⟩

/-- The program ends behind an operator of its only statement. -/
theorem cut_sentence_is_one_error_at_its_end_of_sum :
    let cut := tripling.spelling.take 11
    (Construct.program.Derives (tripling.spelling.map Token.kind) ∧
      (Token.beforeEnd cut).map Token.kind <+: tripling.spelling.map Token.kind ∧
        (Token.beforeEnd cut).map Token.kind ≠ tripling.spelling.map Token.kind) ∧
      ∃ seq n found, found.kind = .endOfFile ∧ (parse cut).errors = [⟨seq, .syntaxError n found⟩] ∧
        (parse cut).located = [(11, ⟨seq, .syntaxError n found⟩)] := by
  intro cut
  have hw : Construct.program.Derives (tripling.spelling.map Token.kind) :=
    Grammar.derives_program canonical_tripling
  have hbegins : (Token.beforeEnd cut).map Token.kind <+: tripling.spelling.map Token.kind := by decide
  have hne : (Token.beforeEnd cut).map Token.kind ≠ tripling.spelling.map Token.kind := by decide
  obtain ⟨seq, n, found, hfound, herrors, hlocated, -⟩ :=
    cut_sentence_is_one_error_at_its_end hw hbegins hne
  exact ⟨⟨hw, hbegins, hne⟩, seq, n, found, hfound, herrors, hlocated⟩

end PalChecker.Parser
