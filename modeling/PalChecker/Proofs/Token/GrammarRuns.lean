import PalChecker.Proofs.Token.Grammar
import PalChecker.Proofs.Token.Spelling

/-!
# What the lexical grammar accepts

The grammar accepts every text, and its matches are the lexemes that a scan reads: the first alternative
that succeeds is the longest one.
-/

namespace PalChecker.Lexer

namespace Peg

/-! ## Expressions that take one character -/

/-- `e` takes one character of the class `p`, and nothing else. -/
structure Takes (e : Peg) (p : Char → Bool) : Prop where
  takes : ∀ {c} cs, p c = true → e.Yields (c :: cs) (some ([], cs))
  fails : ∀ {c} cs, p c = false → e.Yields (c :: cs) none
  ends : e.Yields [] none

/-- `e` succeeds where the first character is of the class `p`, and nowhere else. -/
structure Meets (e : Peg) (p : Char → Bool) : Prop where
  succeeds : ∀ {c} cs, p c = true → ∃ ms rest, e.Yields (c :: cs) (some (ms, rest))
  fails : ∀ {c} cs, p c = false → e.Yields (c :: cs) none
  ends : e.Yields [] none

theorem takes_char (p : Char → Bool) : (char p).Takes p := ⟨fun _ => .char, fun _ => .char_fail, .char_end⟩

variable {e a b : Peg} {p q : Char → Bool}

theorem Takes.meets (h : e.Takes p) : e.Meets p :=
  ⟨fun cs hc => ⟨[], cs, h.takes cs hc⟩, h.fails, h.ends⟩

theorem Takes.congr (h : e.Takes p) (hpq : ∀ c, p c = q c) : e.Takes q := (funext hpq : p = q) ▸ h

theorem Takes.choice (ha : a.Takes p) (hb : b.Takes q) : (choice a b).Takes fun c => p c || q c where
  takes {c} cs hc := by
    by_cases hp : p c = true
    · exact .choice (ha.takes cs hp)
    · exact .choice_else (ha.fails cs (Bool.eq_false_iff.mpr hp))
        (hb.takes cs (((Bool.or_eq_true _ _).mp hc).resolve_left hp))
  fails cs hc :=
    .choice_else (ha.fails cs (Bool.or_eq_false_iff.mp hc).1) (hb.fails cs (Bool.or_eq_false_iff.mp hc).2)
  ends := .choice_else ha.ends hb.ends

theorem Takes.but (ha : a.Meets p) (hb : b.Takes q) : (seq (no a) b).Takes fun c => !p c && q c where
  takes {c} cs hc := by
    obtain ⟨hp, hq⟩ := (Bool.and_eq_true _ _).mp hc
    exact .seq (.no (ha.fails cs ((Bool.not_eq_true' _).mp hp))) (hb.takes cs hq)
  fails {c} cs hc := by
    cases hp : p c with
    | true =>
      -- Looking ahead takes nothing, whatever `a` would take.
      obtain ⟨ms, rest, hyields⟩ := ha.succeeds cs hp
      exact .seq_fail (.no_fail hyields)
    | false =>
      rw [hp, Bool.not_false, Bool.true_and] at hc
      exact .seq_fail_behind (.no (ha.fails cs hp)) (hb.fails cs hc)
  ends := .seq_fail_behind (.no ha.ends) hb.ends

theorem Takes.star (h : e.Takes p) (text : List Char) :
    (star e).Yields text (some ([], text.dropWhile p)) := by
  induction text with
  | nil => exact .star_end h.ends
  | cons c cs ih =>
    cases hc : p c with
    | true =>
      rw [List.dropWhile_cons_of_pos hc]
      exact .star (h.takes cs hc) ih
    | false =>
      rw [List.dropWhile_cons_of_neg (Bool.eq_false_iff.mp hc)]
      exact .star_end (h.fails cs hc)

theorem Takes.plus (h : e.Takes p) {c : Char} (cs : List Char) (hc : p c = true) :
    (plus e).Yields (c :: cs) (some ([], cs.dropWhile p)) := .seq (h.takes cs hc) (h.star cs)

/-! ## The character classes of the grammar -/

theorem takes_lit (c : Char) : (lit c).Takes fun d => d = c := takes_char _

theorem takes_whitespace : whitespace.Takes isBlank :=
  ((takes_lit ' ').choice ((takes_lit '\t').choice ((takes_lit '\r').choice (takes_lit '\n')))).congr
    fun c => by rw [isBlank, isLineEnd, Bool.or_assoc, Bool.or_comm (decide (c = '\r'))]

theorem meets_newline : newline.Meets isLineEnd where
  succeeds {c} cs hc := by
    rcases isLineEnd_iff.mp hc with rfl | rfl
    · -- A carriage return alone is tried only after one with a line feed.
      match cs with
      | [] => exact ⟨_, _, .choice_else (.char_fail rfl)
          (.choice_else (.seq_fail_behind (.char rfl) .char_end) (.char rfl))⟩
      | d :: ds =>
        by_cases hd : d = '\n'
        · exact ⟨_, _, .choice_else (.char_fail rfl)
            (.choice (.seq (.char rfl) (.char (decide_eq_true hd))))⟩
        · exact ⟨_, _, .choice_else (.char_fail rfl)
            (.choice_else (.seq_fail_behind (.char rfl) (.char_fail (decide_eq_false hd))) (.char rfl))⟩
    · exact ⟨_, _, .choice (.char rfl)⟩
  fails {c} cs hc := by
    obtain ⟨hlf, hcr⟩ := Bool.or_eq_false_iff.mp hc
    exact .choice_else (.char_fail hlf) (.choice_else (.seq_fail (.char_fail hcr)) (.char_fail hcr))
  ends := .choice_else .char_end (.choice_else (.seq_fail .char_end) .char_end)

theorem takes_inLine : (seq (no newline) any).Takes isCommentChar :=
  (Takes.but meets_newline (takes_char _)).congr fun _ => Bool.and_true _

theorem takes_inString : (seq (no (lit '"')) (seq (no newline) any)).Takes isStringChar :=
  (Takes.but (takes_lit '"').meets takes_inLine).congr fun _ => (Bool.not_or _ _).symm

theorem takes_inWord : (Peg.choice (char Char.isAlphanum) (lit '_')).Takes isWordChar :=
  (takes_char Char.isAlphanum).choice (takes_lit '_')

theorem takes_punct : punct.Takes fun c => Punct.all.any fun p => c = p.char := by
  refine ((takes_lit ',').choice <| (takes_lit '=').choice <| (takes_lit '+').choice <|
    (takes_lit '-').choice <| (takes_lit '*').choice <| (takes_lit '/').choice <| (takes_lit '<').choice <|
    (takes_lit '>').choice <| (takes_lit '(').choice (takes_lit ')')).congr fun c => ?_
  simp only [Punct.all, List.any_cons, List.any_nil, Bool.or_false]
  rfl

/-! ## Tokens -/

theorem word_yields {c : Char} (hc : c.isAlpha = true) (cs : List Char) :
    word.Yields (c :: cs) (some ([], (Lexeme.word c cs).rest)) := .seq (.char hc) (takes_inWord.star cs)

theorem real_yields {c d : Char} {cs ds : List Char} (hc : c.isDigit = true)
    (hpoint : cs.dropWhile Char.isDigit = '.' :: d :: ds) (hd : d.isDigit = true) :
    real.Yields (c :: cs) (some ([], ds.dropWhile Char.isDigit)) := by
  have hwhole := (takes_char Char.isDigit).plus cs hc
  rw [hpoint] at hwhole
  exact .seq hwhole (.seq (.char rfl) ((takes_char Char.isDigit).plus ds hd))

theorem real_fails_of_no_point {c : Char} {cs : List Char} (hc : c.isDigit = true)
    (hnone : ∀ d ds, cs.dropWhile Char.isDigit = '.' :: d :: ds → d.isDigit = false) :
    real.Yields (c :: cs) none := by
  refine .seq_fail_behind ((takes_char Char.isDigit).plus cs hc) ?_
  match hrest : cs.dropWhile Char.isDigit with
  | [] => exact .seq_fail .char_end
  | x :: rest =>
    by_cases hx : x = '.'
    · refine .seq_fail_behind (.char (decide_eq_true hx)) (.seq_fail ?_)
      cases rest with
      | nil => exact .char_end
      | cons d ds =>
        rw [hx] at hrest
        exact .char_fail (hnone d ds hrest)
    · exact .seq_fail (.char_fail (decide_eq_false hx))

theorem string_yields {cs rest : List Char} (hquote : cs.dropWhile isStringChar = '"' :: rest) :
    string.Yields ('"' :: cs) (some ([], rest)) := by
  have hbody := takes_inString.star cs
  rw [hquote] at hbody
  exact .seq (.char rfl) (.seq hbody (.char rfl))

theorem string_fails_of_open {cs : List Char} (hopen : (cs.dropWhile isStringChar).head? ≠ some '"') :
    string.Yields ('"' :: cs) none := by
  refine .seq_fail_behind (.char rfl) (.seq_fail_behind (takes_inString.star cs) ?_)
  cases hrest : cs.dropWhile isStringChar with
  | nil => exact .char_end
  | cons d rest =>
    rw [hrest] at hopen
    exact .char_fail (decide_eq_false fun hd => hopen (congrArg some hd))

end Peg

theorem Rule.token_word (text : List Char) (location : Location) :
    Rule.word.token text location = ⟨Lexeme.wordKind text, String.ofList text, location⟩ := by
  unfold Rule.token Lexeme.wordKind
  cases hk : Keyword.ofWord? (String.ofList text) with
  | none => rfl
  | some k =>
    rw [Keyword.ofWord?_eq_some_iff.mp hk]

theorem Rule.token_punct (p : Punct) (location : Location) :
    Rule.punct.token [p.char] location = ⟨.punct p, String.ofList [p.char], location⟩ := by
  cases p <;> rfl

theorem trimQuotes_quoted {body : List Char} (h : ∀ c ∈ body, c ≠ '"') :
    trimQuotes ('"' :: body ++ ['"']) = body := by
  cases body with
  | nil => rfl
  | cons c cs =>
    have hc : c ≠ '"' := h c List.mem_cons_self
    have hfront : ('"' :: (c :: cs) ++ ['"']).dropWhile (fun c => decide (c = '"')) = c :: cs ++ ['"'] := by
      rw [List.cons_append, List.dropWhile_cons_of_pos (by rfl), List.cons_append,
        List.dropWhile_cons_of_neg (by simpa using hc)]
    have hback : (c :: cs).reverse.dropWhile (fun c => decide (c = '"')) = (c :: cs).reverse :=
      List.dropWhile_eq_self_iff.mpr fun hl hquote =>
        h _ (List.mem_reverse.mp (List.getElem_mem hl)) (of_decide_eq_true hquote)
    rw [trimQuotes, hfront, List.reverse_append, List.reverse_singleton, List.singleton_append,
      List.dropWhile_cons_of_pos (by rfl), hback, List.reverse_reverse]

namespace Peg

/-- Of the alternatives for a token, the first that succeeds on the text takes the lexeme `l`. -/
def GivesLexeme (text : List Char) (l : Lexeme) : Prop :=
  ∃ rule, token.Yields text (some ([⟨rule, text, l.rest⟩], l.rest)) ∧
    ∀ location, rule.token l.raw location = ⟨l.kind, l.value, location⟩

variable {c : Char}

theorem word_fails (hc : ¬c.isAlpha = true) (cs : List Char) : (rule .word word).Yields (c :: cs) none :=
  .rule_fail (.seq_fail (.char_fail (Bool.eq_false_iff.mpr hc)))

theorem real_fails (hc : ¬c.isDigit = true) (cs : List Char) : (rule .real real).Yields (c :: cs) none :=
  .rule_fail (.seq_fail (.seq_fail (.char_fail (Bool.eq_false_iff.mpr hc))))

theorem integer_fails (hc : ¬c.isDigit = true) (cs : List Char) :
    (rule .integer integer).Yields (c :: cs) none :=
  .rule_fail (.seq_fail (.char_fail (Bool.eq_false_iff.mpr hc)))

theorem givesLexeme_word (hc : c.isAlpha = true) (cs : List Char) :
    GivesLexeme (c :: cs) (Lexeme.word c cs) := by
  refine ⟨.word, .choice (.rule (word_yields hc cs)), fun location => ?_⟩
  rw [Rule.token_word, Lexeme.value_of_reads (Lexeme.reads_word hc cs)]
  rfl

theorem givesLexeme_number (halpha : ¬c.isAlpha = true) (hdigit : c.isDigit = true) (cs : List Char) :
    GivesLexeme (c :: cs) (Lexeme.number c cs) := by
  have hword := word_fails halpha cs
  rcases Lexeme.point_or_no_point cs with ⟨d, ds, hds, hd⟩ | hnone
  · rw [Lexeme.number_of_point c hds hd]
    exact ⟨.real, .choice_else hword (.choice (.rule (real_yields hdigit hds hd))), fun _ => rfl⟩
  · rw [Lexeme.number_of_no_point c hnone]
    have hreal : (rule .real real).Yields (c :: cs) none := .rule_fail (real_fails_of_no_point hdigit hnone)
    have hinteger : integer.Yields (c :: cs) (some ([], cs.dropWhile Char.isDigit)) :=
      (takes_char Char.isDigit).plus cs hdigit
    exact ⟨.integer, .choice_else hword (.choice_else hreal (.choice (.rule hinteger))), fun _ => rfl⟩

theorem token_of_rest {text : List Char} {outcome : Option (List Match × List Char)}
    (halpha : ¬c.isAlpha = true) (hdigit : ¬c.isDigit = true)
    (h : (Peg.choice (rule .string string) (Peg.choice (rule .punct punct) (rule .invalid any))).Yields
      (c :: text) outcome) : token.Yields (c :: text) outcome :=
  .choice_else (word_fails halpha text)
    (.choice_else (real_fails hdigit text) (.choice_else (integer_fails hdigit text) h))

theorem givesLexeme_string (cs : List Char) : GivesLexeme ('"' :: cs) (Lexeme.string cs) := by
  by_cases hclosed : (cs.dropWhile isStringChar).head? = some '"'
  · obtain ⟨rest, hrest⟩ := List.head?_eq_some_iff.mp hclosed
    rw [Lexeme.string_of_closed hrest]
    refine ⟨.string, token_of_rest (by decide) (by decide) (.choice (.rule (string_yields hrest))),
      fun location => ?_⟩
    have hplain : ∀ c ∈ cs.takeWhile isStringChar, c ≠ '"' := fun c hc =>
      (isStringChar_iff.mp (List.mem_takeWhile_imp hc)).1
    have hvalue := Lexeme.value_of_spells (Lexeme.spells_string cs) rest
    rw [Rule.token, trimQuotes_quoted hplain, List.cons_append, hvalue]
  · rw [Lexeme.string_of_open hclosed]
    have hstring : (rule .string string).Yields ('"' :: cs) none :=
      .rule_fail (string_fails_of_open hclosed)
    have hpunct : (rule .punct punct).Yields ('"' :: cs) none := .rule_fail (takes_punct.fails cs rfl)
    exact ⟨.invalid, token_of_rest (by decide) (by decide)
      (.choice_else hstring (.choice_else hpunct (.rule (.char rfl)))), fun _ => rfl⟩

theorem givesLexeme_single (halpha : ¬c.isAlpha = true) (hdigit : ¬c.isDigit = true) (hquote : c ≠ '"')
    (cs : List Char) : GivesLexeme (c :: cs) (Lexeme.single c cs) := by
  have hstring : (rule .string string).Yields (c :: cs) none :=
    .rule_fail (.seq_fail (.char_fail (decide_eq_false hquote)))
  unfold Lexeme.single
  split
  · rename_i p hp
    cases Punct.ofChar?_eq_some_iff.mp hp
    have hmark := takes_punct.takes cs (List.any_eq_true.mpr ⟨p, Punct.mem_all p, decide_eq_true rfl⟩)
    exact ⟨.punct, token_of_rest halpha hdigit (.choice_else hstring (.choice (.rule hmark))),
      Rule.token_punct p⟩
  · rename_i hnone
    have hother : (Punct.all.any fun p => c = p.char) = false := by
      refine List.any_eq_false.mpr fun p _ hp => ?_
      rw [of_decide_eq_true hp, Punct.ofChar?_char] at hnone
      cases hnone
    have hpunct : (rule .punct punct).Yields (c :: cs) none := .rule_fail (takes_punct.fails cs hother)
    exact ⟨.invalid, token_of_rest halpha hdigit
      (.choice_else hstring (.choice_else hpunct (.rule (.char rfl)))), fun _ => rfl⟩

theorem givesLexeme_read (c : Char) (cs : List Char) : GivesLexeme (c :: cs) (Lexeme.read c cs) := by
  induction c, cs using Lexeme.read_cases with
  | word cs halpha => exact givesLexeme_word halpha cs
  | number cs halpha hdigit => exact givesLexeme_number halpha hdigit cs
  | string cs => exact givesLexeme_string cs
  | single cs halpha hdigit hquote => exact givesLexeme_single halpha hdigit hquote cs

/-! ## Gaps -/

theorem comment_yields (text : List Char) :
    comment.Yields ('/' :: '/' :: text) (some ([], text.dropWhile isCommentChar)) :=
  .seq (.seq (.char rfl) (.char rfl)) (takes_inLine.star text)

theorem comment_fails {c : Char} {cs : List Char} (h : ¬(c = '/' ∧ cs.head? = some '/')) :
    comment.Yields (c :: cs) none := by
  refine .seq_fail ?_
  by_cases hc : c = '/'
  · refine .seq_fail_behind (.char (decide_eq_true hc)) ?_
    cases cs with
    | nil => exact .char_end
    | cons d ds => exact .char_fail (decide_eq_false fun hd => h ⟨hc, congrArg some hd⟩)
  · exact .seq_fail (.char_fail (decide_eq_false hc))

theorem comments_yield (text : List Char) :
    (star (seq comment (star whitespace))).Yields (text.dropWhile isBlank)
      (some ([], (splitGap false text).2)) := by
  induction text using gap_induction with
  | nil => exact .star_end (.seq_fail (.seq_fail (.seq_fail .char_end)))
  | stop c cs hblank hslashes =>
    rw [List.dropWhile_cons_of_neg (Bool.eq_false_iff.mp hblank), splitGap_stop hblank hslashes]
    exact .star_end (.seq_fail (comment_fails hslashes))
  | blank c cs hblank ih =>
    rw [List.dropWhile_cons_of_pos hblank, splitGap_blank hblank]
    exact ih
  | comment line ih =>
    -- A comment, the blanks behind it, and again.
    rw [List.dropWhile_cons_of_neg (by decide), splitGap_slashes]
    exact .star (.seq (comment_yields line) (takes_whitespace.star _)) ih

theorem skip_yields (text : List Char) : skip.Yields text (some ([], (splitGap false text).2)) :=
  .seq (takes_whitespace.star text) (comments_yield text)

end Peg

/-! ## Whole texts -/

theorem Match.token_append (rule : Rule) (before raw rest : List Char) :
    Match.token (before ++ (raw ++ rest)) ⟨rule, raw ++ rest, rest⟩ =
      rule.token raw (Location.start.advance before) := by
  simp only [Match.token, List.length_append, Nat.add_sub_cancel, List.take_left]

namespace Peg

theorem token_ends : token.Yields [] none :=
  .choice_else (.rule_fail (.seq_fail .char_end)) <|
    .choice_else (.rule_fail (.seq_fail (.seq_fail .char_end))) <|
    .choice_else (.rule_fail (.seq_fail .char_end)) <|
    .choice_else (.rule_fail (.seq_fail .char_end)) <|
    .choice_else (.rule_fail takes_punct.ends) (.rule_fail .char_end)

theorem more_yields (before text : List Char) :
    ∃ ms last, (star (seq skip token)).Yields text (some (ms, last)) ∧
      (splitGap false last).2 = [] ∧
      ms.map (Match.token (before ++ text)) ++ [.endOfFile (Location.start.advance (before ++ text))] =
        scan (Location.start.advance before) text := by
  induction text using scan_induction generalizing before with
  | gap text hgap =>
    have hskip := skip_yields text
    rw [hgap] at hskip
    refine ⟨[], text, .star_end (.seq_fail_behind hskip token_ends), congrArg Prod.snd hgap, ?_⟩
    rw [scan_of_gap _ hgap, Location.advance_append]
    rfl
  | lexeme text gap c cs hsplit ih =>
    obtain ⟨rule, htoken, hvalue⟩ := givesLexeme_read c cs
    obtain ⟨ms, last, hmore, hlast, hscan⟩ := ih (before ++ gap ++ (Lexeme.read c cs).raw)
    have hskip := skip_yields text
    rw [hsplit] at hskip
    refine ⟨_, last, .star (.seq hskip htoken) hmore, hlast, ?_⟩
    have htext : before ++ text =
        before ++ gap ++ ((Lexeme.read c cs).raw ++ (Lexeme.read c cs).rest) := by
      rw [List.append_assoc, append_of_lexeme hsplit]
    -- What is matched begins behind the gap, and it is what the scan reads there.
    have hmatch : Match.token (before ++ text) ⟨rule, c :: cs, (Lexeme.read c cs).rest⟩ =
        ⟨(Lexeme.read c cs).kind, (Lexeme.read c cs).value, Location.start.advance (before ++ gap)⟩ := by
      rw [htext, ← Lexeme.read_append c cs, Match.token_append, hvalue]
    rw [List.append_assoc, ← htext] at hscan
    rw [scan_of_lexeme _ hsplit, ← Location.advance_append, ← Location.advance_append, ← hscan, ← hmatch]
    rfl

/-- The grammar takes the whole of any text, and its matches are the tokens of the text. -/
theorem tokens_yields (source : List Char) :
    ∃ ms, tokens.Yields source (some (ms, [])) ∧ ms.map (Match.token source) = scan .start source := by
  obtain ⟨ms, last, hyields, hlast, hscan⟩ := more_yields [] source
  have hgap := skip_yields last
  rw [hlast] at hgap
  have hend : (rule .endOfInput (no any)).Yields [] (some ([⟨.endOfInput, [], []⟩], [])) :=
    .rule (.no .char_end)
  refine ⟨ms ++ [⟨.endOfInput, [], []⟩], ?_, ?_⟩
  · cases hyields with
    | star hfirst hmore =>
      cases hfirst with
      | seq hskip htoken =>
        -- The gap in front of the first token is skipped before the repetition begins.
        have htokens : tokens.Yields source _ :=
          .seq hskip (.seq (.choice (.seq htoken hmore)) (.seq hgap hend))
        simpa only [List.append_assoc, List.nil_append] using htokens
    | star_end =>
      exact .seq hgap (.seq (.choice_else (.seq_fail token_ends) .empty) (.seq (skip_yields []) hend))
  · have hmatch := Match.token_append .endOfInput source [] []
    rw [List.append_nil, List.append_nil] at hmatch
    rw [List.nil_append, Location.advance_nil] at hscan
    rw [List.map_append, List.map_singleton, hmatch, ← hscan]
    rfl

end Peg

end PalChecker.Lexer
