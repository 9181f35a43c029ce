import PalChecker.Proofs.Token.LineBreaks
import PalChecker.Proofs.Token.Spelling

/-!
# Tokens written down

Every token of a text is of a form that can be told without the text, and whatever has one of these forms
can be written on a line of its own and read back.
-/

namespace PalChecker

open Lexer

/-! ## Forms -/

/-- A character that stands for itself: nothing separates it from a token, and no token begins with it. -/
def IsStray (c : Char) : Prop :=
  isBlank c = false ∧ c.isAlpha = false ∧ c.isDigit = false ∧ ∀ p : Punct, c ≠ p.char

namespace Token

/-- What may stand before the end of a text. A quote without its closing quote is a stray character. -/
def IsLexable (t : Token) : Prop :=
  match t.kind with
  | .keyword k => t.value = k.text
  | .punct p => t.value = p.text
  | .identifier => IsWord t.value.toList ∧ ∀ k : Keyword, t.value ≠ k.text
  | .integerLiteral => IsDigits t.value.toList
  | .realLiteral => ∃ whole part, IsDigits whole ∧ IsDigits part ∧ t.value.toList = whole ++ '.' :: part
  | .stringLiteral => ∀ c ∈ t.value.toList, c ≠ '"' ∧ c ≠ '\r' ∧ c ≠ '\n'
  | .invalid => ∃ c, IsStray c ∧ t.value = String.singleton c
  | .booleanLiteral | .endOfFile => False

/-- The raw text of a token. -/
def written (t : Token) : String :=
  if t.kind = .stringLiteral then "\"" ++ t.value ++ "\"" else t.value

/-- One token on each line. -/
def lines (tokens : List Token) : String := "\n".intercalate (tokens.map written)

end Token

/-! ## Forms and spellings -/

theorem isWord_of_all {c : Char} {cs : List Char} (hc : c.isAlpha = true) (hcs : cs.all isWordChar = true) :
    IsWord (c :: cs) :=
  ⟨c, cs, rfl, hc, fun d hd => isWordChar_iff.mp (List.all_eq_true.mp hcs d hd)⟩

theorem Keyword.isWord_text (k : Keyword) : IsWord k.text.toList := by
  cases k <;> exact isWord_of_all rfl rfl

theorem Punct.toList_text (p : Punct) : p.text.toList = [p.char] := by
  unfold text
  simp

namespace Token

variable {kind : TokenKind} {raw value : List Char} {here : Location} {t : Token}

theorem isLexable_of_spells (h : Spells kind raw value) :
    IsLexable ⟨kind, String.ofList value, here⟩ := by
  cases h with
  | keyword _ hk =>
    change String.ofList _ = _
    rw [hk, String.ofList_toList]
  | identifier hword hother =>
    refine ⟨(String.toList_ofList ..).symm ▸ hword, fun k hk => hother k ?_⟩
    rw [← hk]
    exact (String.toList_ofList ..).symm
  | integer hdigits =>
    change IsDigits (String.toList _)
    rwa [String.toList_ofList]
  | real hwhole hpart => exact ⟨_, _, hwhole, hpart, String.toList_ofList ..⟩
  | string hbody =>
    change ∀ c ∈ String.toList _, _
    rwa [String.toList_ofList]
  | punct p => rfl

theorem spells_or_stray (h : t.IsLexable) :
    Spells t.kind t.written.toList t.value.toList ∨
      t.kind = .invalid ∧ ∃ c, IsStray c ∧ t.written.toList = [c] ∧ t.value = String.ofList [c] := by
  obtain ⟨kind, value, here⟩ := t
  cases kind with
  | keyword k =>
    obtain rfl : value = k.text := h
    exact .inl (.keyword k.isWord_text rfl)
  | punct p =>
    obtain rfl : value = p.text := h
    left
    change Spells _ p.text.toList p.text.toList
    rw [p.toList_text]
    exact .punct p
  | identifier => exact .inl (.identifier h.1 fun k hk => h.2 k (String.toList_inj.mp hk))
  | integerLiteral => exact .inl (.integer h)
  | realLiteral =>
    obtain ⟨whole, part, hwhole, hpart, hvalue⟩ := h
    left
    change Spells _ value.toList value.toList
    change value.toList = _ at hvalue
    rw [hvalue]
    exact .real hwhole hpart
  | stringLiteral =>
    left
    have hwritten : (written ⟨.stringLiteral, value, here⟩).toList = '"' :: (value.toList ++ ['"']) := by
      simp [written]
    rw [hwritten]
    exact .string h
  | invalid =>
    obtain ⟨c, hc, hvalue⟩ := h
    change value = _ at hvalue
    right
    refine ⟨rfl, c, hc, ?_, ?_⟩
    · simp [written, hvalue]
    · rw [hvalue, String.singleton_eq_ofList]
  | booleanLiteral => exact h.elim
  | endOfFile => exact h.elim

end Token

namespace Lexer

/-! ## A line with one token -/

theorem isBlank_eq_false_of_isWordChar {c : Char} (h : isWordChar c = true) : isBlank c = false := by
  refine Bool.eq_false_iff.mpr fun hblank => ?_
  rcases isBlank_iff.mp hblank with rfl | rfl | rfl | rfl <;> revert h <;> decide

theorem Spells.splitGap {kind : TokenKind} {cs value : List Char} {c : Char}
    (h : Spells kind (c :: cs) value) : splitGap false (c :: cs) = ([], c :: cs) := by
  rcases h.cases_cons with ⟨hc, -⟩ | ⟨hc, -⟩ | ⟨rfl, -⟩ | ⟨p, rfl, rfl⟩
  · apply splitGap_stop (isBlank_eq_false_of_isWordChar (isWordChar_iff.mpr (.inl hc)))
    rintro ⟨rfl, -⟩
    exact absurd hc (by decide)
  · apply splitGap_stop (isBlank_eq_false_of_isWordChar (isWordChar_iff.mpr (.inr (.inl hc))))
    rintro ⟨rfl, -⟩
    exact absurd hc (by decide)
  · exact splitGap_stop rfl fun h => absurd h.1 (by decide)
  · apply splitGap_stop
    · cases p <;> rfl
    · rintro ⟨-, hnext⟩
      cases hnext

theorem scan_nil (here : Location) : scan here [] = [.endOfFile here] := by
  have hgap : splitGap false [] = ([], []) := rfl
  rw [scan_of_gap here hgap, Location.advance_nil]

theorem scan_of_spells {kind : TokenKind} {raw value : List Char} (h : Spells kind raw value)
    (here : Location) :
    scan here raw = [⟨kind, String.ofList value, here⟩, .endOfFile (here.advance raw)] := by
  obtain ⟨c, cs, rfl⟩ := List.exists_cons_of_ne_nil h.ne_nil
  rw [scan_of_lexeme here h.splitGap, Lexeme.read_of_spells h, scan_nil,
    Lexeme.value_of_spells h]
  rfl

theorem read_of_isStray {c : Char} (h : IsStray c) : Lexeme.read c [] = ⟨.invalid, [c], []⟩ := by
  obtain ⟨-, halpha, hdigit, hpunct⟩ := h
  by_cases hquote : c = '"'
  · rw [hquote]
    rfl
  · rw [Lexeme.read_of_other (Bool.eq_false_iff.mp halpha) (Bool.eq_false_iff.mp hdigit) hquote, Lexeme.single]
    split
    · rename_i p hp
      exact absurd (Punct.ofChar?_eq_some_iff.mp hp) (hpunct p)
    · rfl

theorem scan_of_isStray {c : Char} (h : IsStray c) (here : Location) :
    scan here [c] = [⟨.invalid, String.ofList [c], here⟩, .endOfFile (here.advance [c])] := by
  have hgap : splitGap false [c] = ([], [c]) := splitGap_stop h.1 fun h => by cases h.2
  rw [scan_of_lexeme here hgap, read_of_isStray h, scan_nil]
  rfl

theorem scan_written {t : Token} (h : t.IsLexable) (here : Location) :
    scan here t.written.toList =
      [⟨t.kind, t.value, here⟩, .endOfFile (here.advance t.written.toList)] := by
  rcases Token.spells_or_stray h with hspells | ⟨hkind, c, hc, hwritten, hvalue⟩
  · rw [scan_of_spells hspells, String.ofList_toList]
  · rw [hwritten, hkind, hvalue, scan_of_isStray hc]

/-! ## Lines -/

section

variable {e : Char}

theorem Spells.lineEnd_not_mem (he : isLineEnd e = true) {kind : TokenKind} {raw value : List Char}
    (h : Spells kind raw value) : e ∉ raw := by
  have hplain : isWordChar e = false ∧ e ≠ '.' ∧ e ≠ '"' ∧ ∀ p : Punct, e ≠ p.char := by
    rcases isLineEnd_iff.mp he with rfl | rfl
    · exact ⟨rfl, by decide, by decide, fun p => by cases p <;> decide⟩
    · exact ⟨rfl, by decide, by decide, fun p => by cases p <;> decide⟩
  obtain ⟨hother, hpoint, hquote, hpunct⟩ := hplain
  have hword {w : List Char} (hw : IsWord w) : e ∉ w := by
    obtain ⟨c, cs, rfl, hc, hcs⟩ := hw
    intro hmem
    refine absurd (isWordChar_iff.mpr ?_) (Bool.eq_false_iff.mp hother)
    rcases List.mem_cons.mp hmem with rfl | hmem
    · exact .inl hc
    · exact hcs e hmem
  have hdigits {ds : List Char} (hds : IsDigits ds) : e ∉ ds := fun hmem =>
    absurd (isWordChar_iff.mpr (.inr (.inl (hds.2 e hmem)))) (Bool.eq_false_iff.mp hother)
  cases h with
  | keyword hw | identifier hw => exact hword hw
  | integer hds => exact hdigits hds
  | real hwhole hpart => simp [hdigits hwhole, hdigits hpart, hpoint]
  | string hbody =>
    have hmem : e ∉ _ := fun hmem => absurd (isLineEnd_iff.mp he) (not_or.mpr (hbody e hmem).2)
    simp [hmem, hquote]
  | punct p => simp [hpunct p]

theorem lineEnd_not_mem_written (he : isLineEnd e = true) {t : Token} (h : t.IsLexable) :
    e ∉ t.written.toList := by
  rcases Token.spells_or_stray h with hspells | ⟨-, c, hc, hwritten, -⟩
  · exact hspells.lineEnd_not_mem he
  · rw [hwritten]
    intro hmem
    obtain rfl := List.mem_singleton.mp hmem
    have hblank : isBlank e = true := isBlank_iff.mpr (.inr (.inr (isLineEnd_iff.mp he)))
    exact absurd hblank (Bool.eq_false_iff.mp hc.1)

end

theorem toList_lines_cons_cons (t u : Token) (tokens : List Token) :
    (Token.lines (t :: u :: tokens)).toList =
      t.written.toList ++ '\n' :: (Token.lines (u :: tokens)).toList := by
  simp [Token.lines, String.intercalate_cons_cons]

/-- What is written on lines is read back line by line. -/
theorem scan_lines {tokens : List Token} (h : ∀ t ∈ tokens, t.IsLexable) (first : Nat) :
    scan ⟨first, 1⟩ (Token.lines tokens).toList =
      tokens.mapIdx (fun i t => ⟨t.kind, t.value, ⟨first + i, 1⟩⟩) ++
        [.endOfFile (Location.advance ⟨first, 1⟩ (Token.lines tokens).toList)] := by
  induction tokens generalizing first with
  | nil => exact scan_nil _
  | cons t tokens ih =>
    obtain ⟨ht, htokens⟩ := List.forall_mem_cons.mp h
    cases tokens with
    | nil =>
      have hline : Token.lines [t] = t.written := by simp [Token.lines]
      rw [hline, scan_written ht]
      rfl
    | cons u tokens =>
      have hnext : Location.advance ⟨first, 1⟩ (t.written.toList ++ ['\n']) = ⟨first + 1, 1⟩ := by
        rw [Location.advance_append, Location.advance_cons, Location.after, if_pos rfl, Location.line_advance,
          List.count_eq_zero_of_not_mem (lineEnd_not_mem_written rfl ht)]
        rfl
      have hend : Location.advance ⟨first, 1⟩ (t.written.toList ++ '\n' :: (Token.lines (u :: tokens)).toList) =
          Location.advance ⟨first + 1, 1⟩ (Token.lines (u :: tokens)).toList := by
        rw [← hnext, ← Location.advance_append, List.append_assoc, List.singleton_append]
      rw [toList_lines_cons_cons, scan_line_break, scan_written ht, hnext, hend, ih htokens]
      simp [List.mapIdx_cons, Nat.add_assoc, Nat.add_comm 1]

/-! ## Every token has one of the forms -/

theorem isBlank_eq_false_of_splitGap {text cs : List Char} {c : Char}
    (h : (splitGap false text).2 = c :: cs) : isBlank c = false := by
  induction text using gap_induction with
  | nil => cases h
  | stop d ds hblank hslashes =>
    rw [splitGap_stop hblank hslashes] at h
    exact (List.cons.inj h).1 ▸ hblank
  | blank d ds hd ih =>
    rw [splitGap_blank hd] at h
    exact ih h
  | comment line ih =>
    rw [splitGap_slashes] at h
    exact ih h

theorem isStray_of_none {c : Char} {cs : List Char} (hblank : isBlank c = false)
    (hnone : ∀ kind raw value, raw <+: c :: cs → ¬Spells kind raw value) : IsStray c := by
  have hfront : [c] <+: c :: cs := List.prefix_append [c] cs
  refine ⟨hblank, Bool.eq_false_iff.mpr fun halpha => ?_, Bool.eq_false_iff.mpr fun hdigit => ?_, ?_⟩
  · have hword : IsWord [c] := ⟨c, [], rfl, halpha, fun d hd => absurd hd List.not_mem_nil⟩
    exact hnone _ _ _ hfront (Lexeme.spells_wordKind hword)
  · have hdigits : IsDigits [c] := ⟨List.cons_ne_nil _ _, List.forall_mem_singleton.mpr hdigit⟩
    exact hnone _ _ _ hfront (.integer hdigits)
  · rintro p rfl
    exact hnone _ _ _ hfront (.punct p)

theorem isLexable_read {c : Char} {cs : List Char} (hblank : isBlank c = false) (here : Location) :
    Token.IsLexable ⟨(Lexeme.read c cs).kind, (Lexeme.read c cs).value, here⟩ := by
  obtain ⟨value, hreads⟩ := Lexeme.reads_read c cs
  rw [Lexeme.value_of_reads hreads]
  have happend := Lexeme.read_append c cs
  generalize Lexeme.read c cs = l at hreads happend
  obtain ⟨kind, raw, rest⟩ := l
  cases hreads with
  | longest hspells => exact Token.isLexable_of_spells hspells
  | invalid hnone =>
    obtain ⟨rfl, rfl⟩ := List.cons.inj happend
    exact ⟨_, isStray_of_none hblank hnone, String.singleton_eq_ofList.symm⟩

theorem isLexable_of_mem_scan {here : Location} {text : List Char} {t : Token}
    (h : t ∈ scan here text) (hkind : t.kind ≠ .endOfFile) : t.IsLexable := by
  induction text using scan_induction generalizing here with
  | gap text hgap =>
    rw [scan_of_gap here hgap] at h
    exact absurd (congrArg Token.kind (List.mem_singleton.mp h)) hkind
  | lexeme text gap c cs hsplit ih =>
    rw [scan_of_lexeme here hsplit] at h
    rcases List.mem_cons.mp h with rfl | hmem
    · apply isLexable_read
      apply isBlank_eq_false_of_splitGap
      rw [hsplit]
    · exact ih hmem

/-- Tokens of the forms there are, written one on each line, are read back: each at the start of its line, and
then the end of file. And whatever the text, the tokens before its end are of these forms. -/
theorem tokenize_inverts_lines :
    (∀ tokens : List Token, (∀ t ∈ tokens, t.IsLexable) →
      tokenize (Token.lines tokens) =
        tokens.mapIdx (fun i t => ⟨t.kind, t.value, ⟨1 + i, 1⟩⟩) ++
          [.endOfFile (Location.start.advance (Token.lines tokens).toList)]) ∧
      ∀ source : String, ∃ tokens last,
        tokenize source = tokens ++ [.endOfFile last] ∧ ∀ t ∈ tokens, t.IsLexable := by
  refine ⟨fun tokens h => scan_lines h 1, fun source => ?_⟩
  obtain ⟨tokens, hscan, hkinds⟩ := exists_scan_eq .start source.toList
  refine ⟨tokens, _, hscan, fun t ht => ?_⟩
  have hmem : t ∈ scan .start source.toList := by
    rw [hscan]
    exact List.mem_append_left _ ht
  exact isLexable_of_mem_scan hmem (hkinds t ht)

/-- A string that holds the slashes of a comment, a slash, and a quote that closes nothing. -/
theorem tokenize_inverts_lines_of_slashes :
    let tokens : List Token :=
      [⟨.stringLiteral, "// a", .start⟩, ⟨.punct .slash, "/", .start⟩, ⟨.invalid, "\"", .start⟩]
    (∀ t ∈ tokens, t.IsLexable) ∧
      tokenize (Token.lines tokens) =
        [⟨.stringLiteral, "// a", ⟨1, 1⟩⟩, ⟨.punct .slash, "/", ⟨2, 1⟩⟩, ⟨.invalid, "\"", ⟨3, 1⟩⟩,
          .endOfFile ⟨3, 2⟩] := by
  intro tokens
  have hquote : IsStray '"' := ⟨rfl, rfl, rfl, fun p => (Punct.char_plain p).2.2.symm⟩
  have hlexable : ∀ t ∈ tokens, t.IsLexable := by
    have hstring : ∀ c ∈ "// a".toList, c ≠ '"' ∧ c ≠ '\r' ∧ c ≠ '\n' := fun c hc =>
      isStringChar_iff.mp (List.all_eq_true.mp (by rfl : "// a".toList.all isStringChar = true) c hc)
    simp only [tokens, List.forall_mem_cons]
    exact ⟨hstring, rfl, ⟨_, hquote, rfl⟩, fun t ht => absurd ht List.not_mem_nil⟩
  exact ⟨hlexable, (tokenize_inverts_lines.1 tokens hlexable).trans (by decide +kernel)⟩

end Lexer

end PalChecker
