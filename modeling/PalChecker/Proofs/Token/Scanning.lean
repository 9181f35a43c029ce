import PalChecker.Proofs.LongestRun
import PalChecker.Token.Lexer

/-!
# Scanning a text token by token

A scan skips the gap at the front of a text, reads one lexeme and goes on behind it. What it gives is never
empty, for it ends with the end of file and has no other.
-/

namespace PalChecker.Lexer

/-! ## Gaps -/

theorem isLineEnd_iff {c : Char} : isLineEnd c = true ↔ c = '\r' ∨ c = '\n' := by
  unfold isLineEnd
  rw [Bool.or_eq_true, decide_eq_true_eq, decide_eq_true_eq]
  exact or_comm

theorem isBlank_iff {c : Char} : isBlank c = true ↔ c = ' ' ∨ c = '\t' ∨ c = '\r' ∨ c = '\n' := by
  unfold isBlank
  rw [Bool.or_eq_true, Bool.or_eq_true, decide_eq_true_eq, decide_eq_true_eq, isLineEnd_iff, or_assoc]

/-- May stand behind the slashes of a comment. -/
def isCommentChar (c : Char) : Bool := !isLineEnd c

theorem isCommentChar_iff {c : Char} : isCommentChar c = true ↔ c ≠ '\r' ∧ c ≠ '\n' := by
  rw [isCommentChar, Bool.not_eq_true', ← Bool.not_eq_true, isLineEnd_iff, not_or]

theorem isCommentChar_eq_false_iff {c : Char} : isCommentChar c = false ↔ c = '\r' ∨ c = '\n' := by
  rw [isCommentChar, Bool.not_eq_false', isLineEnd_iff]

/-- Whether a comment is open behind `c` in a gap, with `next` to come; nothing if `c` ends the gap. -/
def gapStep? (inComment : Bool) (c : Char) (next : Option Char) : Option Bool :=
  if inComment then some (isCommentChar c)
  else if isBlank c then some false
  else if c = '/' ∧ next = some '/' then some true
  else none

theorem splitGap_cons (inComment : Bool) (c : Char) (cs : List Char) :
    splitGap inComment (c :: cs) =
      match gapStep? inComment c cs.head? with
      | some inComment' => (c :: (splitGap inComment' cs).1, (splitGap inComment' cs).2)
      | none => ([], c :: cs) := by
  rw [splitGap, gapStep?]
  split
  · rfl
  split
  · rfl
  split <;> rfl

theorem splitGap_blank {c : Char} (hc : isBlank c = true) (cs : List Char) :
    splitGap false (c :: cs) = (c :: (splitGap false cs).1, (splitGap false cs).2) := by
  rw [splitGap_cons, gapStep?, if_neg Bool.false_ne_true, if_pos hc]

theorem splitGap_stop {c : Char} {cs : List Char} (hblank : isBlank c = false)
    (hslashes : ¬(c = '/' ∧ cs.head? = some '/')) : splitGap false (c :: cs) = ([], c :: cs) := by
  rw [splitGap_cons, gapStep?, if_neg Bool.false_ne_true, if_neg (Bool.eq_false_iff.mp hblank),
    if_neg hslashes]

theorem splitGap_comment (text : List Char) :
    splitGap true text =
      (text.takeWhile isCommentChar ++ (splitGap false (text.dropWhile isCommentChar)).1,
        (splitGap false (text.dropWhile isCommentChar)).2) := by
  induction text with
  | nil => rfl
  | cons c cs ih =>
    rw [splitGap_cons, gapStep?, if_pos rfl]
    cases hc : isCommentChar c with
    | true =>
      simp only [List.takeWhile_cons_of_pos hc, List.dropWhile_cons_of_pos hc, ih]
      rfl
    | false =>
      -- The comment ends at a line end, which is a blank.
      have hblank : isBlank c = true := isBlank_iff.mpr (.inr (.inr (isCommentChar_eq_false_iff.mp hc)))
      rw [List.takeWhile_cons_of_neg (Bool.eq_false_iff.mp hc),
        List.dropWhile_cons_of_neg (Bool.eq_false_iff.mp hc), splitGap_blank hblank]
      rfl

theorem splitGap_slashes (line : List Char) :
    splitGap false ('/' :: '/' :: line) =
      ('/' :: '/' :: (line.takeWhile isCommentChar ++
          (splitGap false (line.dropWhile isCommentChar)).1),
        (splitGap false (line.dropWhile isCommentChar)).2) := by
  have hopen : splitGap false ('/' :: '/' :: line) =
      ('/' :: '/' :: (splitGap true line).1, (splitGap true line).2) := rfl
  rw [hopen, splitGap_comment]

theorem gap_induction {motive : List Char → Prop} (nil : motive [])
    (stop : ∀ c cs, isBlank c = false → ¬(c = '/' ∧ cs.head? = some '/') → motive (c :: cs))
    (blank : ∀ c cs, isBlank c = true → motive cs → motive (c :: cs))
    (comment : ∀ line, motive (line.dropWhile isCommentChar) → motive ('/' :: '/' :: line))
    (text : List Char) : motive text := by
  match text with
  | [] => exact nil
  | c :: cs =>
    cases hblank : isBlank c with
    | true => exact blank c cs hblank (gap_induction nil stop blank comment cs)
    | false =>
      by_cases hslashes : c = '/' ∧ cs.head? = some '/'
      · obtain ⟨line, hline⟩ := List.head?_eq_some_iff.mp hslashes.2
        rw [hslashes.1, hline]
        exact comment line (gap_induction nil stop blank comment (line.dropWhile isCommentChar))
      · exact stop c cs hblank hslashes
termination_by text.length
decreasing_by
  · have hlength : (line.dropWhile isCommentChar).length ≤ line.length :=
      (List.dropWhile_suffix _).length_le
    simp only [hline, List.length_cons]
    omega
  · exact Nat.lt_succ_self _

/-! ## Numbers and strings by what is behind them -/

namespace Lexeme

theorem number_of_point (c : Char) {cs ds : List Char} {d : Char}
    (h : cs.dropWhile Char.isDigit = '.' :: d :: ds) (hd : d.isDigit = true) :
    number c cs =
      ⟨.realLiteral, c :: cs.takeWhile Char.isDigit ++ '.' :: d :: ds.takeWhile Char.isDigit,
        ds.dropWhile Char.isDigit⟩ := by
  unfold number
  simp only [h, hd, if_true]

theorem number_of_no_point (c : Char) {cs : List Char}
    (h : ∀ d ds, cs.dropWhile Char.isDigit = '.' :: d :: ds → d.isDigit = false) :
    number c cs = ⟨.integerLiteral, c :: cs.takeWhile Char.isDigit, cs.dropWhile Char.isDigit⟩ := by
  unfold number
  split
  · rename_i d ds heq
    simp only [h d ds heq, heq, Bool.false_eq_true, if_false]
  · rfl

theorem point_or_no_point (cs : List Char) :
    (∃ d ds, cs.dropWhile Char.isDigit = '.' :: d :: ds ∧ d.isDigit = true) ∨
      ∀ d ds, cs.dropWhile Char.isDigit = '.' :: d :: ds → d.isDigit = false := by
  by_cases hpoint : ∃ d ds, cs.dropWhile Char.isDigit = '.' :: d :: ds ∧ d.isDigit = true
  · exact .inl hpoint
  · exact .inr fun d ds hds => Bool.eq_false_iff.mpr fun hd => hpoint ⟨d, ds, hds, hd⟩

theorem string_of_closed {cs rest : List Char} (h : cs.dropWhile isStringChar = '"' :: rest) :
    string cs = ⟨.stringLiteral, '"' :: cs.takeWhile isStringChar ++ ['"'], rest⟩ := by
  unfold string
  simp only [h]

theorem string_of_open {cs : List Char} (h : (cs.dropWhile isStringChar).head? ≠ some '"') :
    string cs = ⟨.invalid, ['"'], cs⟩ := by
  unfold string
  split
  · rename_i heq
    exact absurd (congrArg List.head? heq) h
  · rfl

end Lexeme

/-! ## One step of a scan -/

theorem scan_of_gap (here : Location) {text gap : List Char} (h : splitGap false text = (gap, [])) :
    scan here text = [.endOfFile (here.advance gap)] := by
  rw [scan]
  split
  · rename_i heq
    cases h.symm.trans heq
    rfl
  · rename_i heq
    cases h.symm.trans heq

theorem scan_of_lexeme (here : Location) {text gap cs : List Char} {c : Char}
    (h : splitGap false text = (gap, c :: cs)) :
    scan here text =
      ⟨(Lexeme.read c cs).kind, (Lexeme.read c cs).value, here.advance gap⟩ ::
        scan ((here.advance gap).advance (Lexeme.read c cs).raw) (Lexeme.read c cs).rest := by
  rw [scan]
  split
  · rename_i heq
    cases h.symm.trans heq
  · rename_i heq
    cases h.symm.trans heq
    rfl

theorem append_of_lexeme {text gap cs : List Char} {c : Char} (h : splitGap false text = (gap, c :: cs)) :
    gap ++ ((Lexeme.read c cs).raw ++ (Lexeme.read c cs).rest) = text := by
  have hsplit := splitGap_append false text
  rwa [h, ← Lexeme.read_append c cs] at hsplit

theorem eq_of_gap {text gap : List Char} (h : splitGap false text = (gap, [])) : gap = text := by
  have hsplit := splitGap_append false text
  rwa [h, List.append_nil] at hsplit

theorem scan_induction {motive : List Char → Prop}
    (gap : ∀ text, splitGap false text = (text, []) → motive text)
    (lexeme : ∀ text gap c cs, splitGap false text = (gap, c :: cs) →
      motive (Lexeme.read c cs).rest → motive text) (text : List Char) : motive text := by
  match hsplit : splitGap false text with
  | (g, []) =>
    rw [eq_of_gap hsplit] at hsplit
    exact gap text hsplit
  | (g, c :: cs) => exact lexeme text g c cs hsplit (scan_induction gap lexeme (Lexeme.read c cs).rest)
termination_by text.length
decreasing_by
  have hlength := length_splitGap_le false text
  have hrest := Lexeme.length_read_rest_le c cs
  simp only [hsplit, List.length_cons] at hlength
  omega

/-! ## The end of file -/

namespace Lexeme

theorem wordKind_ne_endOfFile (word : List Char) : wordKind word ≠ .endOfFile := by
  unfold wordKind
  split <;> exact TokenKind.noConfusion

theorem read_kind_ne_endOfFile (c : Char) (cs : List Char) : (read c cs).kind ≠ .endOfFile := by
  unfold read number string single
  repeat' split
  · exact wordKind_ne_endOfFile _
  all_goals exact TokenKind.noConfusion

end Lexeme

theorem exists_scan_eq (here : Location) (text : List Char) :
    ∃ tokens, scan here text = tokens ++ [.endOfFile (here.advance text)] ∧
      ∀ t ∈ tokens, t.kind ≠ .endOfFile := by
  induction text using scan_induction generalizing here with
  | gap text hgap => exact ⟨[], scan_of_gap here hgap, fun _ h => absurd h List.not_mem_nil⟩
  | lexeme text gap c cs hsplit ih =>
    obtain ⟨tokens, hscan, hkinds⟩ := ih ((here.advance gap).advance (Lexeme.read c cs).raw)
    refine ⟨⟨(Lexeme.read c cs).kind, (Lexeme.read c cs).value, here.advance gap⟩ :: tokens, ?_,
      List.forall_mem_cons.mpr ⟨Lexeme.read_kind_ne_endOfFile c cs, hkinds⟩⟩
    rw [scan_of_lexeme here hsplit, hscan, ← Location.advance_append, ← Location.advance_append,
      append_of_lexeme hsplit, List.cons_append]

theorem scan_ne_nil (here : Location) (text : List Char) : scan here text ≠ [] := by
  obtain ⟨tokens, hscan, -⟩ := exists_scan_eq here text
  rw [hscan]
  exact List.append_ne_nil_of_right_ne_nil _ (List.cons_ne_nil _ _)

end PalChecker.Lexer
