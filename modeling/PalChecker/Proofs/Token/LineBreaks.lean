import PalChecker.Proofs.Token.Scanning

/-!
# Texts with a line break in the middle

Whatever is open at the end of a line, the line feed closes it. So the text behind a line break is scanned
as if it stood alone, further down.
-/

namespace PalChecker

/-! ## Further down -/

def Location.down (lines : Nat) (here : Location) : Location := ⟨here.line + lines, here.column⟩

/-- The same token, so many lines further down. -/
def Token.down (lines : Nat) (t : Token) : Token := { t with location := t.location.down lines }

namespace Location

theorem after_down (lines : Nat) (here : Location) (c : Char) :
    (here.down lines).after c = (here.after c).down lines := by
  unfold after down
  split
  · exact congrArg (Location.mk · 1) (Nat.add_right_comm here.line lines 1)
  · rfl

theorem advance_down (lines : Nat) (here : Location) (text : List Char) :
    (here.down lines).advance text = (here.advance text).down lines := by
  induction text generalizing here with
  | nil => rfl
  | cons c text ih => rw [advance_cons, advance_cons, after_down, ih]

theorem line_advance (here : Location) (text : List Char) :
    (here.advance text).line = here.line + text.count '\n' := by
  induction text generalizing here with
  | nil => rfl
  | cons c text ih =>
    rw [advance_cons, ih, after]
    by_cases hc : c = '\n'
    · rw [if_pos hc, hc, List.count_cons_self, Nat.add_assoc, Nat.add_comm 1]
    · rw [if_neg hc, List.count_cons_of_ne hc]

theorem advance_line_feed (text : List Char) :
    start.advance (text ++ ['\n']) = start.down (1 + text.count '\n') := by
  have hline := line_advance start text
  simp only [advance_append, advance_cons, advance_nil, after, if_pos, down, hline, mk.injEq]
  exact ⟨by omega, rfl⟩

end Location

namespace Lexer

theorem scan_down (lines : Nat) (here : Location) (text : List Char) :
    scan (here.down lines) text = (scan here text).map (Token.down lines) := by
  induction text using scan_induction generalizing here with
  | gap text hgap =>
    rw [scan_of_gap _ hgap, scan_of_gap _ hgap, Location.advance_down]
    rfl
  | lexeme text gap c cs hsplit ih =>
    rw [scan_of_lexeme _ hsplit, scan_of_lexeme _ hsplit, Location.advance_down, Location.advance_down,
      ih]
    rfl

/-! ## The line break as a boundary -/

namespace Lexeme

/-- The lexeme is the same, and more text is behind it. -/
def followedBy (l : Lexeme) (text : List Char) : Lexeme := { l with rest := l.rest ++ text }

variable (c : Char) (cs text : List Char)

theorem word_line_break : word c (cs ++ '\n' :: text) = (word c cs).followedBy ('\n' :: text) := by
  unfold word
  rw [takeWhile_append_stop rfl, dropWhile_append_stop rfl]
  rfl

theorem number_line_break : number c (cs ++ '\n' :: text) = (number c cs).followedBy ('\n' :: text) := by
  have hdigits := dropWhile_append_stop (by decide : Char.isDigit '\n' = false) cs text
  rcases point_or_no_point cs with ⟨d, ds, hds, hd⟩ | hnone
  · rw [hds, List.cons_append, List.cons_append] at hdigits
    rw [number_of_point c hds hd, number_of_point c hdigits hd, takeWhile_append_stop rfl,
      takeWhile_append_stop rfl, dropWhile_append_stop rfl]
    rfl
  · have hnone' : ∀ d ds, (cs ++ '\n' :: text).dropWhile Char.isDigit = '.' :: d :: ds →
        d.isDigit = false := by
      intro d ds hds
      rw [hdigits] at hds
      match hrest : cs.dropWhile Char.isDigit with
      | [] =>
        rw [hrest] at hds
        cases hds
      | [_] =>
        -- A point at the end of the line has the line feed behind it.
        rw [hrest] at hds
        cases hds
        rfl
      | _ :: _ :: _ =>
        rw [hrest] at hds
        cases hds
        exact hnone _ _ hrest
    rw [number_of_no_point c hnone, number_of_no_point c hnone', takeWhile_append_stop rfl, hdigits]
    rfl

theorem string_line_break : string (cs ++ '\n' :: text) = (string cs).followedBy ('\n' :: text) := by
  have hbody := dropWhile_append_stop (by decide : isStringChar '\n' = false) cs text
  by_cases hquote : (cs.dropWhile isStringChar).head? = some '"'
  · obtain ⟨rest, hrest⟩ := List.head?_eq_some_iff.mp hquote
    rw [hrest, List.cons_append] at hbody
    rw [string_of_closed hrest, string_of_closed hbody, takeWhile_append_stop rfl]
    rfl
  · have hquote' : ((cs ++ '\n' :: text).dropWhile isStringChar).head? ≠ some '"' := by
      rw [hbody]
      cases hrest : cs.dropWhile isStringChar with
      | nil => exact fun h => absurd (Option.some.inj h) (by decide)
      | cons d rest => rwa [hrest] at hquote
    rw [string_of_open hquote, string_of_open hquote']
    rfl

theorem single_line_break : single c (cs ++ '\n' :: text) = (single c cs).followedBy ('\n' :: text) := by
  unfold single
  split <;> rfl

theorem read_line_break : read c (cs ++ '\n' :: text) = (read c cs).followedBy ('\n' :: text) := by
  unfold read
  rw [word_line_break, number_line_break, string_line_break, single_line_break]
  repeat' split
  all_goals rfl

end Lexeme

theorem gapStep?_line_break (inComment : Bool) (c : Char) (a b : List Char) :
    gapStep? inComment c (a ++ '\n' :: b).head? = gapStep? inComment c a.head? := by
  cases a with
  | nil =>
    unfold gapStep?
    simp only [List.nil_append, List.head?_cons, List.head?_nil, reduceCtorEq, Option.some.injEq,
      Char.reduceEq]
  | cons d a => rfl

theorem splitGap_line_break (inComment : Bool) (a b : List Char) :
    splitGap inComment (a ++ '\n' :: b) =
      if (splitGap inComment a).2 = [] then (a ++ '\n' :: (splitGap false b).1, (splitGap false b).2)
      else ((splitGap inComment a).1, (splitGap inComment a).2 ++ '\n' :: b) := by
  induction a generalizing inComment with
  | nil => cases inComment <;> rfl
  | cons c a ih =>
    rw [List.cons_append, splitGap_cons, splitGap_cons, gapStep?_line_break]
    cases gapStep? inComment c a.head? with
    | none => rfl
    | some inComment' =>
      -- Whether the rest of `a` is all gap is told by the induction.
      simp only [ih]
      split <;> rfl

/-! ## Texts with a line break -/

theorem scan_line_break (here : Location) (a b : List Char) :
    scan here (a ++ '\n' :: b) = (scan here a).dropLast ++ scan (here.advance (a ++ ['\n'])) b := by
  induction a using scan_induction generalizing here with
  | gap a hgap =>
    have hsplit := splitGap_line_break false a b
    rw [hgap, if_pos rfl] at hsplit
    rw [scan_of_gap here hgap, List.dropLast_singleton, List.nil_append]
    match hb : splitGap false b with
    | (gap, []) =>
      rw [hb] at hsplit
      rw [scan_of_gap here hsplit, scan_of_gap _ hb]
      simp only [Location.advance_append, Location.advance_cons, Location.advance_nil]
    | (gap, c :: cs) =>
      rw [hb] at hsplit
      rw [scan_of_lexeme here hsplit, scan_of_lexeme _ hb]
      simp only [Location.advance_append, Location.advance_cons, Location.advance_nil]
  | lexeme a gap c cs hgap ih =>
    have hsplit := splitGap_line_break false a b
    rw [hgap, if_neg (List.cons_ne_nil c cs), List.cons_append] at hsplit
    rw [scan_of_lexeme here hgap, scan_of_lexeme here hsplit, List.dropLast_cons_of_ne_nil (scan_ne_nil _ _),
      Lexeme.read_line_break, ← append_of_lexeme hgap]
    simp only [Lexeme.followedBy, ih, Location.advance_append, List.cons_append]
    rfl

/-- What stands before a line break is read as if the text ended there, and what stands behind it as if the
text began there, with the lines before it counted. -/
theorem tokenize_line_break (s t : String) :
    ∃ tokens last, tokenize s = tokens ++ [.endOfFile last] ∧ (∀ x ∈ tokens, x.kind ≠ .endOfFile) ∧
      tokenize (s ++ "\n" ++ t) = tokens ++ (tokenize t).map (Token.down (1 + s.toList.count '\n')) := by
  obtain ⟨tokens, hscan, hkinds⟩ := exists_scan_eq .start s.toList
  refine ⟨tokens, _, hscan, hkinds, ?_⟩
  have hlist : (s ++ "\n" ++ t).toList = s.toList ++ '\n' :: t.toList := by
    simp only [String.toList_append, List.append_assoc]
    rfl
  rw [tokenize, hlist, scan_line_break, hscan, List.dropLast_concat, Location.advance_line_feed, scan_down]
  rfl

end Lexer

end PalChecker
