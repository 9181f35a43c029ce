import PalChecker.Proofs.Token.GrammarRuns

/-!
# How a text is cut into tokens

A text is a gap, a token, a gap and so on, and each is as long as it can be. Nothing is left out and
nothing is read twice, so the tokens of a text and their places can be told from the cut alone.
-/

namespace PalChecker

/-! ## Places -/

/-- The place behind a text: a line for each line feed, a column for each character since the last one. -/
def Location.behind (text : List Char) : Location :=
  ⟨1 + text.count '\n', 1 + (text.reverse.takeWhile fun c => c ≠ '\n').length⟩

namespace Lexer

/-! ## Gaps -/

/-- A gap with `rest` behind it: blanks, and comments that run up to the end of their line or of the text. -/
inductive IsGap (rest : List Char) : List Char → Prop where
  | nil : IsGap rest []
  | blank {c : Char} {gap : List Char} (hc : c = ' ' ∨ c = '\t' ∨ c = '\r' ∨ c = '\n')
      (hgap : IsGap rest gap) : IsGap rest (c :: gap)
  | comment {body gap : List Char} (hbody : ∀ c ∈ body, c ≠ '\r' ∧ c ≠ '\n')
      (hend : ∀ c, (gap ++ rest).head? = some c → c = '\r' ∨ c = '\n') (hgap : IsGap rest gap) :
    IsGap rest ('/' :: '/' :: (body ++ gap))

/-- No gap at the front of the text is longer. -/
def IsLongestGap (gap rest : List Char) : Prop :=
  IsGap rest gap ∧ ∀ gap' rest', gap' ++ rest' = gap ++ rest → IsGap rest' gap' → gap'.length ≤ gap.length

/-! ## Cuts -/

/-- A token with the gap in front of it. -/
structure Piece where
  gap : List Char
  kind : TokenKind
  raw : List Char
  value : List Char

/-- The text that is cut into these pieces and a last gap. -/
def joined (pieces : List Piece) (last : List Char) : List Char :=
  (pieces.flatMap fun p => p.gap ++ p.raw) ++ last

/-- Every gap is as long as it can be, and behind it as much is read as can be. -/
inductive Cuts : List Piece → (last : List Char) → Prop where
  | last {last : List Char} (hgap : IsLongestGap last []) : Cuts [] last
  | piece {p : Piece} {pieces : List Piece} {last : List Char}
      (hgap : IsLongestGap p.gap (p.raw ++ joined pieces last))
      (hreads : Reads (joined pieces last) p.kind p.raw p.value) (hcuts : Cuts pieces last) :
    Cuts (p :: pieces) last

/-- The tokens of these pieces, each where it begins, with the text `before` in front. -/
def located (before : List Char) : List Piece → List Token
  | [] => []
  | p :: pieces =>
    ⟨p.kind, String.ofList p.value, .behind (before ++ p.gap)⟩ ::
      located (before ++ (p.gap ++ p.raw)) pieces

/-! ## The gap that is skipped -/

theorem IsGap.length_le {rest gap : List Char} (h : IsGap rest gap) :
    gap.length ≤ (splitGap false (gap ++ rest)).1.length := by
  induction h with
  | nil => exact Nat.zero_le _
  | blank hc _ ih =>
    rw [List.cons_append, splitGap_blank (isBlank_iff.mpr hc)]
    exact Nat.succ_le_succ ih
  | @comment body gap hbody hend _ ih =>
    have hrun := run_append (fun c hc => isCommentChar_iff.mpr (hbody c hc))
      fun c hc => isCommentChar_eq_false_iff.mpr (hend c hc)
    rw [List.cons_append, List.cons_append, List.append_assoc, splitGap_slashes, hrun.1, hrun.2]
    simp only [List.length_cons, List.length_append]
    omega

theorem isGap_splitGap (text : List Char) : IsGap (splitGap false text).2 (splitGap false text).1 := by
  induction text using gap_induction with
  | nil => exact .nil
  | stop c cs hblank hslashes =>
    rw [splitGap_stop hblank hslashes]
    exact .nil
  | blank c cs hc ih =>
    rw [splitGap_blank hc]
    exact .blank (isBlank_iff.mp hc) ih
  | comment line ih =>
    rw [splitGap_slashes]
    refine .comment (fun c hc => isCommentChar_iff.mp (List.mem_takeWhile_imp hc)) (fun c hc => ?_) ih
    rw [splitGap_append] at hc
    have hstop := List.head?_dropWhile_not isCommentChar line
    rw [hc] at hstop
    exact isCommentChar_eq_false_iff.mp hstop

theorem isLongestGap_splitGap (text : List Char) :
    IsLongestGap (splitGap false text).1 (splitGap false text).2 := by
  refine ⟨isGap_splitGap text, fun gap' rest' heq hgap => ?_⟩
  have hlength := hgap.length_le
  rwa [heq, splitGap_append] at hlength

/-! ## A text is cut in one way -/

theorem IsLongestGap.unique {gap gap' rest rest' : List Char} (h : IsLongestGap gap rest)
    (h' : IsLongestGap gap' rest') (htext : gap ++ rest = gap' ++ rest') : gap = gap' ∧ rest = rest' :=
  List.append_inj htext (Nat.le_antisymm (h'.2 gap rest htext h.1) (h.2 gap' rest' htext.symm h'.1))

theorem joined_cons (p : Piece) (pieces : List Piece) (last : List Char) :
    joined (p :: pieces) last = p.gap ++ (p.raw ++ joined pieces last) := by
  simp only [joined, List.flatMap_cons, List.append_assoc]

theorem Reads.ne_nil {rest raw value : List Char} {kind : TokenKind} (h : Reads rest kind raw value) :
    raw ≠ [] := by
  cases h with
  | longest hspells => exact hspells.ne_nil
  | invalid => exact List.cons_ne_nil _ _

theorem Cuts.unique {pieces pieces' : List Piece} {last last' : List Char} (h : Cuts pieces last)
    (h' : Cuts pieces' last') (htext : joined pieces last = joined pieces' last') :
    pieces = pieces' ∧ last = last' := by
  induction h generalizing pieces' with
  | last hgap =>
    cases h' with
    | last => exact ⟨rfl, htext⟩
    | piece hgap' hreads' =>
      -- A piece takes something, so its gap cannot be the whole text.
      rw [joined_cons] at htext
      obtain ⟨-, hnil⟩ := hgap.unique hgap' ((List.append_nil _).trans htext)
      exact absurd (List.append_eq_nil_iff.mp hnil.symm).1 hreads'.ne_nil
  | @piece p _ _ hgap hreads _ ih =>
    cases h' with
    | last hgap' =>
      rw [joined_cons] at htext
      obtain ⟨-, hnil⟩ := hgap.unique hgap' (htext.trans (List.append_nil _).symm)
      exact absurd (List.append_eq_nil_iff.mp hnil).1 hreads.ne_nil
    | @piece p' _ _ hgap' hreads' hcuts' =>
      rw [joined_cons, joined_cons] at htext
      obtain ⟨hg, hrest⟩ := hgap.unique hgap' htext
      obtain ⟨hkind, hraw, hvalue⟩ := hreads.unique hreads' hrest
      rw [hraw] at hrest
      obtain ⟨rfl, rfl⟩ := ih hcuts' (List.append_cancel_left hrest)
      obtain ⟨gap, kind, raw, value⟩ := p
      cases hg
      cases hkind
      cases hraw
      cases hvalue
      exact ⟨rfl, rfl⟩

end Lexer

/-! ## Places in a text -/

namespace Location

theorem after_behind (text : List Char) (c : Char) : (behind text).after c = behind (text ++ [c]) := by
  unfold after behind
  rw [List.reverse_append, List.reverse_singleton, List.singleton_append, List.count_append,
    List.takeWhile_cons]
  by_cases hc : c = '\n'
  · rw [if_pos hc, hc, List.count_singleton_self, if_neg (by decide), Nat.add_assoc]
    rfl
  · have hcount : List.count '\n' [c] = 0 := List.count_eq_zero_of_not_mem (by simpa using Ne.symm hc)
    rw [if_neg hc, hcount, if_pos (decide_eq_true hc)]
    rfl

theorem advance_behind (before text : List Char) :
    (behind before).advance text = behind (before ++ text) := by
  induction text generalizing before with
  | nil => rw [advance_nil, List.append_nil]
  | cons c text ih => rw [advance_cons, after_behind, ih, List.append_assoc, List.singleton_append]

theorem compare_eq_lt_iff {a b : Location} :
    a.compare b = .lt ↔ a.line < b.line ∨ a.line = b.line ∧ a.column < b.column := by
  unfold Location.compare compareLex compareOn
  rw [Ordering.then_eq_lt, Nat.compare_eq_lt, Nat.compare_eq_lt, Nat.compare_eq_eq]

theorem compare_trans {a b c : Location} (hab : a.compare b = .lt) (hbc : b.compare c = .lt) :
    a.compare c = .lt := by
  rw [compare_eq_lt_iff] at hab hbc ⊢
  omega

theorem compare_after (here : Location) (c : Char) : here.compare (here.after c) = .lt := by
  rw [compare_eq_lt_iff, after]
  split
  · exact .inl (Nat.lt_succ_self _)
  · exact .inr ⟨rfl, Nat.lt_succ_self _⟩

theorem compare_advance (here : Location) {text : List Char} (h : text ≠ []) :
    here.compare (here.advance text) = .lt := by
  induction text generalizing here with
  | nil => exact absurd rfl h
  | cons c text ih =>
    rw [advance_cons]
    by_cases htext : text = []
    · rw [htext]
      exact compare_after here c
    · exact compare_trans (compare_after here c) (ih _ htext)

end Location

namespace Lexer

theorem exists_advance_of_mem_scan {here : Location} {text : List Char} {t : Token}
    (h : t ∈ scan here text) : ∃ front, t.location = here.advance front := by
  induction text using scan_induction generalizing here with
  | gap text hgap =>
    rw [scan_of_gap here hgap] at h
    exact ⟨text, congrArg Token.location (List.mem_singleton.mp h)⟩
  | lexeme text gap c cs hsplit ih =>
    rw [scan_of_lexeme here hsplit] at h
    rcases List.mem_cons.mp h with rfl | hmem
    · exact ⟨gap, rfl⟩
    · obtain ⟨front, hfront⟩ := ih hmem
      rw [← Location.advance_append, ← Location.advance_append] at hfront
      exact ⟨_, hfront⟩

/-- Each token stands further on than those before it. -/
theorem pairwise_scan (here : Location) (text : List Char) :
    (scan here text).Pairwise fun a b => a.location.compare b.location = .lt := by
  induction text using scan_induction generalizing here with
  | gap text hgap =>
    rw [scan_of_gap here hgap]
    exact List.pairwise_singleton _ _
  | lexeme text gap c cs hsplit ih =>
    rw [scan_of_lexeme here hsplit]
    refine List.pairwise_cons.mpr ⟨fun t ht => ?_, ih _⟩
    obtain ⟨front, hfront⟩ := exists_advance_of_mem_scan ht
    rw [hfront, ← Location.advance_append]
    exact Location.compare_advance _
      (List.append_ne_nil_of_left_ne_nil (Lexeme.read_raw_ne_nil c cs) front)

/-! ## The tokens of a text -/

theorem exists_cuts (before text : List Char) :
    ∃ pieces last, text = joined pieces last ∧ Cuts pieces last ∧
      scan (.behind before) text =
        located before pieces ++ [.endOfFile (.behind (before ++ text))] := by
  induction text using scan_induction generalizing before with
  | gap text hgap =>
    have hlongest := isLongestGap_splitGap text
    rw [hgap] at hlongest
    refine ⟨[], text, rfl, .last hlongest, ?_⟩
    rw [scan_of_gap _ hgap, Location.advance_behind]
    rfl
  | lexeme text gap c cs hsplit ih =>
    obtain ⟨value, hreads⟩ := Lexeme.reads_read c cs
    -- The rest is cut by itself, from where the lexeme ends.
    obtain ⟨pieces, last, hrest, hcuts, hscan⟩ := ih (before ++ (gap ++ (Lexeme.read c cs).raw))
    have htext := append_of_lexeme hsplit
    have hlongest := isLongestGap_splitGap text
    rw [hsplit, ← Lexeme.read_append c cs, hrest] at hlongest
    have hvalue := Lexeme.value_of_reads hreads
    rw [hrest] at hreads htext
    refine ⟨⟨gap, (Lexeme.read c cs).kind, (Lexeme.read c cs).raw, value⟩ :: pieces, last, ?_,
      .piece hlongest hreads hcuts, ?_⟩
    · rw [joined_cons, htext]
    · rw [scan_of_lexeme _ hsplit, Location.advance_behind, Location.advance_behind, List.append_assoc,
        hscan, hrest, ← htext, hvalue, located]
      simp only [List.append_assoc, List.cons_append]

/-- However a text was cut, if only gaps and tokens are as long as they can be, its tokens are these. -/
theorem tokenize_of_cuts {pieces : List Piece} {last : List Char} (h : Cuts pieces last) {source : String}
    (hsource : source.toList = joined pieces last) :
    tokenize source = located [] pieces ++ [.endOfFile (.behind source.toList)] := by
  obtain ⟨pieces', last', htext, hcuts, hscan⟩ := exists_cuts [] source.toList
  obtain ⟨rfl, rfl⟩ := h.unique hcuts (hsource.symm.trans htext)
  exact hscan

/-- The grammar takes all of any text, and in one way. The tokens of its matches are those of a cut into
gaps and tokens that are as long as they can be, each where it begins, and the end of file behind the
text. -/
theorem tokenize_cuts (source : String) :
    (∃ ms, (∀ outcome, Peg.tokens.Yields source.toList outcome ↔ outcome = some (ms, [])) ∧
        tokenize source = ms.map (Match.token source.toList)) ∧
      ∃ pieces last, source.toList = joined pieces last ∧ Cuts pieces last ∧
        tokenize source = located [] pieces ++ [.endOfFile (.behind source.toList)] ∧
        (∀ t ∈ located [] pieces, t.kind ≠ .endOfFile) ∧
        (tokenize source).Pairwise fun a b => a.location.compare b.location = .lt := by
  obtain ⟨ms, hyields, hmatches⟩ := Peg.tokens_yields source.toList
  obtain ⟨pieces, last, htext, hcuts, hscan⟩ := exists_cuts [] source.toList
  obtain ⟨tokens, htokens, hkinds⟩ := exists_scan_eq .start source.toList
  have hlocated : tokens = located [] pieces := List.append_inj_left' (htokens.symm.trans hscan) rfl
  rw [hlocated] at hkinds
  constructor
  · exact ⟨ms, fun outcome => ⟨fun h => h.unique hyields, fun h => h ▸ hyields⟩, hmatches.symm⟩
  · exact ⟨pieces, last, htext, hcuts, hscan, hkinds, pairwise_scan _ _⟩

end Lexer

end PalChecker
