import PalChecker.Proofs.Token.Scanning

/-!
# How tokens are spelled

What a token of each kind looks like, without a word on how it is found. At the front of a text the lexer
reads the longest token there is, and a single character where there is none.
-/

namespace PalChecker

theorem Punct.char_plain (p : Punct) :
    p.char.isAlpha = false ∧ p.char.isDigit = false ∧ p.char ≠ '"' := by
  cases p <;> decide

namespace Lexer

/-! ## Spellings -/

/-- A letter, then letters, digits and underscores. -/
def IsWord (raw : List Char) : Prop :=
  ∃ c cs, raw = c :: cs ∧ c.isAlpha = true ∧ ∀ d ∈ cs, d.isAlpha = true ∨ d.isDigit = true ∨ d = '_'

def IsDigits (raw : List Char) : Prop := raw ≠ [] ∧ ∀ d ∈ raw, d.isDigit = true

/-- A token of this kind, as it is written and what it stands for. -/
inductive Spells : TokenKind → (raw value : List Char) → Prop where
  | keyword {raw : List Char} {k : Keyword} (hword : IsWord raw) (hk : raw = k.text.toList) :
    Spells (.keyword k) raw raw
  | identifier {raw : List Char} (hword : IsWord raw) (hother : ∀ k : Keyword, raw ≠ k.text.toList) :
    Spells .identifier raw raw
  | integer {raw : List Char} (hdigits : IsDigits raw) : Spells .integerLiteral raw raw
  | real {whole part : List Char} (hwhole : IsDigits whole) (hpart : IsDigits part) :
    Spells .realLiteral (whole ++ '.' :: part) (whole ++ '.' :: part)
  | string {body : List Char} (hbody : ∀ c ∈ body, c ≠ '"' ∧ c ≠ '\r' ∧ c ≠ '\n') :
    Spells .stringLiteral ('"' :: (body ++ ['"'])) body
  | punct (p : Punct) : Spells (.punct p) [p.char] [p.char]

/-- What is taken from the front of a text: the longest token there, or one character that begins none. -/
inductive Reads (rest : List Char) : TokenKind → (raw value : List Char) → Prop where
  | longest {kind : TokenKind} {raw value : List Char} (hspells : Spells kind raw value)
      (hlongest : ∀ kind' raw' value', raw' <+: raw ++ rest → Spells kind' raw' value' →
        raw'.length ≤ raw.length) :
    Reads rest kind raw value
  | invalid {c : Char} (hnone : ∀ kind raw value, raw <+: c :: rest → ¬Spells kind raw value) :
    Reads rest .invalid [c] [c]

/-! ## Characters -/

theorem isDigit_eq_false_of_isAlpha {c : Char} (h : c.isAlpha = true) : c.isDigit = false := by
  have hletter : (decide (65 ≤ c.val ∧ c.val ≤ 90) || (decide (97 ≤ c.val) && decide (c.val ≤ 122))) =
      true := h
  simp only [Bool.or_eq_true, Bool.and_eq_true, decide_eq_true_eq, UInt32.le_iff_toNat_le] at hletter
  change (65 ≤ c.toNat ∧ c.toNat ≤ 90) ∨ (97 ≤ c.toNat ∧ c.toNat ≤ 122) at hletter
  refine Bool.eq_false_iff.mpr fun hdigit => ?_
  have hbounds : 48 ≤ c.toNat ∧ c.toNat ≤ 57 := Char.isDigit_iff_toNat.mp hdigit
  omega

theorem isWordChar_iff {c : Char} :
    isWordChar c = true ↔ c.isAlpha = true ∨ c.isDigit = true ∨ c = '_' := by
  unfold isWordChar Char.isAlphanum
  rw [Bool.or_eq_true, Bool.or_eq_true, decide_eq_true_eq, or_assoc]

theorem isStringChar_iff {c : Char} : isStringChar c = true ↔ c ≠ '"' ∧ c ≠ '\r' ∧ c ≠ '\n' := by
  simp only [isStringChar, isLineEnd, Bool.not_eq_true', Bool.or_eq_false_iff, decide_eq_false_iff_not]
  exact and_congr_right fun _ => and_comm

/-! ## Spellings by their first character -/

theorem Spells.ne_nil {kind : TokenKind} {raw value : List Char} (h : Spells kind raw value) :
    raw ≠ [] := by
  cases h with
  | keyword hword | identifier hword =>
    obtain ⟨c, cs, rfl, -⟩ := hword
    exact List.cons_ne_nil c cs
  | integer hdigits => exact hdigits.1
  | real => exact List.append_ne_nil_of_right_ne_nil _ (List.cons_ne_nil _ _)
  | string | punct => exact List.cons_ne_nil _ _

theorem IsWord.cons {c : Char} {cs : List Char} (h : IsWord (c :: cs)) :
    c.isAlpha = true ∧ ∀ d ∈ cs, isWordChar d = true := by
  obtain ⟨_, _, heq, hc, hcs⟩ := h
  cases heq
  exact ⟨hc, fun d hd => isWordChar_iff.mpr (hcs d hd)⟩

theorem IsDigits.cons {c : Char} {cs : List Char} (h : IsDigits (c :: cs)) :
    c.isDigit = true ∧ ∀ d ∈ cs, d.isDigit = true :=
  List.forall_mem_cons.mp h.2

theorem IsDigits.exists_cons {raw : List Char} (h : IsDigits raw) :
    ∃ d ds, raw = d :: ds ∧ d.isDigit = true ∧ ∀ e ∈ ds, e.isDigit = true := by
  obtain ⟨d, ds, rfl⟩ := List.exists_cons_of_ne_nil h.1
  exact ⟨d, ds, rfl, h.cons⟩

section

variable {kind : TokenKind} {value cs : List Char} {c : Char}

/-- A spelling is a word, a number, a string or punctuation, and its first character says which. -/
theorem Spells.cases_cons (h : Spells kind (c :: cs) value) :
    (c.isAlpha = true ∧ ∀ d ∈ cs, isWordChar d = true) ∨
      (c.isDigit = true ∧ ((∀ d ∈ cs, d.isDigit = true) ∨
        ∃ whole d part, cs = whole ++ '.' :: d :: part ∧ (∀ e ∈ whole, e.isDigit = true) ∧
          d.isDigit = true ∧ ∀ e ∈ part, e.isDigit = true)) ∨
      (c = '"' ∧ ∃ body, cs = body ++ ['"'] ∧ ∀ d ∈ body, isStringChar d = true) ∨
      ∃ p : Punct, c = p.char ∧ cs = [] := by
  generalize hraw : c :: cs = raw at h
  cases h with
  | keyword hword | identifier hword =>
    rw [← hraw] at hword
    exact .inl hword.cons
  | integer hdigits =>
    rw [← hraw] at hdigits
    exact .inr (.inl ⟨hdigits.cons.1, .inl hdigits.cons.2⟩)
  | real hwhole hpart =>
    obtain ⟨_, whole, rfl, hc, hdigits⟩ := hwhole.exists_cons
    obtain ⟨d, part, rfl, hd, hmore⟩ := hpart.exists_cons
    cases hraw
    exact .inr (.inl ⟨hc, .inr ⟨whole, d, part, rfl, hdigits, hd, hmore⟩⟩)
  | string hbody =>
    cases hraw
    exact .inr (.inr (.inl ⟨rfl, _, rfl, fun d hd => isStringChar_iff.mpr (hbody d hd)⟩))
  | punct p =>
    cases hraw
    exact .inr (.inr (.inr ⟨p, rfl, rfl⟩))

theorem Spells.of_isAlpha (h : Spells kind (c :: cs) value) (hc : c.isAlpha = true) :
    ∀ d ∈ cs, isWordChar d = true := by
  rcases h.cases_cons with ⟨-, hcs⟩ | ⟨hdigit, -⟩ | ⟨rfl, -⟩ | ⟨p, rfl, -⟩
  · exact hcs
  · exact absurd hdigit (Bool.eq_false_iff.mp (isDigit_eq_false_of_isAlpha hc))
  · exact absurd hc (by decide)
  · exact absurd hc (Bool.eq_false_iff.mp (Punct.char_plain p).1)

theorem Spells.of_isDigit (h : Spells kind (c :: cs) value) (hc : c.isDigit = true) :
    (∀ d ∈ cs, d.isDigit = true) ∨
      ∃ whole d part, cs = whole ++ '.' :: d :: part ∧ (∀ e ∈ whole, e.isDigit = true) ∧
        d.isDigit = true ∧ ∀ e ∈ part, e.isDigit = true := by
  rcases h.cases_cons with ⟨halpha, -⟩ | ⟨-, hcs⟩ | ⟨rfl, -⟩ | ⟨p, rfl, -⟩
  · exact absurd hc (Bool.eq_false_iff.mp (isDigit_eq_false_of_isAlpha halpha))
  · exact hcs
  · exact absurd hc (by decide)
  · exact absurd hc (Bool.eq_false_iff.mp (Punct.char_plain p).2.1)

theorem Spells.of_quote (h : Spells kind ('"' :: cs) value) :
    ∃ body, cs = body ++ ['"'] ∧ ∀ d ∈ body, isStringChar d = true := by
  rcases h.cases_cons with ⟨halpha, -⟩ | ⟨hdigit, -⟩ | ⟨-, hcs⟩ | ⟨p, hp, -⟩
  · exact absurd halpha (by decide)
  · exact absurd hdigit (by decide)
  · exact hcs
  · exact absurd hp.symm (Punct.char_plain p).2.2

theorem Spells.of_other (h : Spells kind (c :: cs) value) (halpha : ¬c.isAlpha = true)
    (hdigit : ¬c.isDigit = true) (hquote : c ≠ '"') : ∃ p : Punct, c = p.char ∧ cs = [] := by
  rcases h.cases_cons with ⟨hc, -⟩ | ⟨hc, -⟩ | ⟨hc, -⟩ | hp
  · exact absurd hc halpha
  · exact absurd hc hdigit
  · exact absurd hc hquote
  · exact hp

end

/-! ## What is read is the longest spelling -/

theorem Reads.of_cons {kind : TokenKind} {raw value rest cs : List Char} {c : Char}
    (happend : raw ++ rest = c :: cs) (hspells : Spells kind raw value)
    (hlongest : ∀ kind' cs' value', cs' <+: cs → Spells kind' (c :: cs') value' →
      cs'.length < raw.length) : Reads rest kind raw value := by
  refine .longest hspells fun kind' raw' value' hfront hspells' => ?_
  obtain ⟨c', cs', rfl⟩ := List.exists_cons_of_ne_nil hspells'.ne_nil
  rw [happend] at hfront
  obtain ⟨rfl, htail⟩ := List.cons_prefix_cons.mp hfront
  exact hlongest kind' cs' value' htail hspells'

theorem Reads.of_none {cs : List Char} {c : Char}
    (hnone : ∀ kind cs' value, cs' <+: cs → ¬Spells kind (c :: cs') value) :
    Reads cs .invalid [c] [c] := by
  refine .invalid fun kind raw value hfront hspells => ?_
  obtain ⟨c', cs', rfl⟩ := List.exists_cons_of_ne_nil hspells.ne_nil
  obtain ⟨rfl, htail⟩ := List.cons_prefix_cons.mp hfront
  exact hnone kind cs' value htail hspells

namespace Lexeme

theorem wordKind_text (k : Keyword) : wordKind k.text.toList = .keyword k := by
  rw [wordKind, String.ofList_toList, Keyword.ofWord?_text]

theorem wordKind_of_other {raw : List Char} (h : ∀ k : Keyword, raw ≠ k.text.toList) :
    wordKind raw = .identifier := by
  unfold wordKind
  split
  · rename_i k hk
    have htext := congrArg String.toList (Keyword.ofWord?_eq_some_iff.mp hk)
    rw [String.toList_ofList] at htext
    exact absurd htext (h k)
  · rfl

theorem spells_wordKind {raw : List Char} (h : IsWord raw) : Spells (wordKind raw) raw raw := by
  by_cases hkeyword : ∃ k : Keyword, raw = k.text.toList
  · obtain ⟨k, hk⟩ := hkeyword
    rw [hk, wordKind_text, ← hk]
    exact .keyword h hk
  · have hother : ∀ k : Keyword, raw ≠ k.text.toList := fun k hk => hkeyword ⟨k, hk⟩
    rw [wordKind_of_other hother]
    exact .identifier h hother

theorem reads_word {c : Char} (hc : c.isAlpha = true) (cs : List Char) :
    Reads (word c cs).rest (word c cs).kind (word c cs).raw (word c cs).raw := by
  have hword : IsWord (word c cs).raw :=
    ⟨c, cs.takeWhile isWordChar, rfl, hc, fun d hd =>
      isWordChar_iff.mp (List.all_eq_true.mp List.all_takeWhile d hd)⟩
  refine .of_cons (word_append c cs) (spells_wordKind hword) fun _ cs' _ hfront hspells => ?_
  exact Nat.lt_succ_of_le (length_le_takeWhile hfront (hspells.of_isAlpha hc))

theorem reads_number {c : Char} (hc : c.isDigit = true) (cs : List Char) :
    Reads (number c cs).rest (number c cs).kind (number c cs).raw (number c cs).raw := by
  have happend := number_append c cs
  have hwhole : IsDigits (c :: cs.takeWhile Char.isDigit) :=
    ⟨List.cons_ne_nil _ _, List.forall_mem_cons.mpr ⟨hc, fun d => List.mem_takeWhile_imp⟩⟩
  rcases point_or_no_point cs with ⟨d, ds, hds, hd⟩ | hnone
  · have hpart : IsDigits (d :: ds.takeWhile Char.isDigit) :=
      ⟨List.cons_ne_nil _ _, List.forall_mem_cons.mpr ⟨hd, fun e => List.mem_takeWhile_imp⟩⟩
    rw [number_of_point c hds hd] at happend ⊢
    refine .of_cons happend (.real hwhole hpart) fun _ cs' _ hfront hspells => ?_
    simp only [List.cons_append, List.length_cons, List.length_append]
    rcases hspells.of_isDigit hc with hdigits | ⟨whole, d', part, rfl, hdigits, hd', hmore⟩
    · have := length_le_takeWhile hfront hdigits
      omega
    · -- Another number with a point has it in the same place.
      obtain ⟨rest, rfl⟩ := hfront
      rw [List.append_assoc, List.cons_append] at hds ⊢
      obtain ⟨hrun, hstop⟩ :=
        run_append_stop hdigits (by decide : Char.isDigit '.' = false) (d' :: part ++ rest)
      rw [hstop, List.cons_append] at hds
      obtain ⟨rfl, rfl⟩ := List.cons.inj (List.cons.inj hds).2
      have := length_le_takeWhile (List.prefix_append part rest) hmore
      rw [hrun]
      simp only [List.length_append, List.length_cons]
      omega
  · rw [number_of_no_point c hnone] at happend ⊢
    refine .of_cons happend (.integer hwhole) fun _ cs' _ hfront hspells => ?_
    rcases hspells.of_isDigit hc with hdigits | ⟨whole, d', part, rfl, hdigits, hd', -⟩
    · exact Nat.lt_succ_of_le (length_le_takeWhile hfront hdigits)
    · obtain ⟨rest, rfl⟩ := hfront
      rw [List.append_assoc, List.cons_append] at hnone
      have hstop :=
        (run_append_stop hdigits (by decide : Char.isDigit '.' = false) (d' :: part ++ rest)).2
      exact absurd hd' (Bool.eq_false_iff.mp (hnone d' (part ++ rest) hstop))

theorem spells_string (cs : List Char) :
    Spells .stringLiteral ('"' :: (cs.takeWhile isStringChar ++ ['"'])) (cs.takeWhile isStringChar) :=
  .string fun _ hc => isStringChar_iff.mp (List.mem_takeWhile_imp hc)

theorem reads_string (cs : List Char) :
    ∃ value, Reads (string cs).rest (string cs).kind (string cs).raw value := by
  have happend := string_append cs
  by_cases hquote : (cs.dropWhile isStringChar).head? = some '"'
  · obtain ⟨rest, hrest⟩ := List.head?_eq_some_iff.mp hquote
    rw [string_of_closed hrest] at happend ⊢
    refine ⟨_, .of_cons happend (spells_string cs) fun _ cs' _ hfront hspells => ?_⟩
    obtain ⟨body, rfl, hbody⟩ := hspells.of_quote
    obtain ⟨rest', rfl⟩ := hfront
    have hrun := (run_append_stop hbody (by decide : isStringChar '"' = false) rest').1
    rw [List.append_assoc, List.singleton_append, hrun]
    exact Nat.lt_succ_self _
  · rw [string_of_open hquote]
    refine ⟨['"'], .of_none fun _ cs' _ hfront hspells => ?_⟩
    obtain ⟨body, rfl, hbody⟩ := hspells.of_quote
    obtain ⟨rest, rfl⟩ := hfront
    rw [List.append_assoc, List.singleton_append,
      (run_append_stop hbody (by decide : isStringChar '"' = false) rest).2] at hquote
    exact hquote rfl

theorem reads_single {c : Char} (halpha : ¬c.isAlpha = true) (hdigit : ¬c.isDigit = true)
    (hquote : c ≠ '"') (cs : List Char) :
    Reads (single c cs).rest (single c cs).kind (single c cs).raw (single c cs).raw := by
  unfold single
  split
  · rename_i p hp
    cases Punct.ofChar?_eq_some_iff.mp hp
    refine .of_cons rfl (.punct p) fun _ cs' _ _ hspells => ?_
    obtain ⟨-, -, rfl⟩ := hspells.of_other halpha hdigit hquote
    exact Nat.one_pos
  · rename_i hnone
    refine .of_none fun _ cs' _ _ hspells => ?_
    obtain ⟨p, rfl, -⟩ := hspells.of_other halpha hdigit hquote
    rw [Punct.ofChar?_char] at hnone
    cases hnone

theorem read_of_isAlpha {c : Char} (h : c.isAlpha = true) (cs : List Char) : read c cs = word c cs :=
  if_pos h

theorem read_of_isDigit {c : Char} (h : c.isDigit = true) (cs : List Char) : read c cs = number c cs := by
  have halpha : ¬c.isAlpha = true := fun halpha =>
    absurd h (Bool.eq_false_iff.mp (isDigit_eq_false_of_isAlpha halpha))
  rw [read, if_neg halpha, if_pos h]

theorem read_quote (cs : List Char) : read '"' cs = string cs := rfl

theorem read_of_other {c : Char} (halpha : ¬c.isAlpha = true) (hdigit : ¬c.isDigit = true)
    (hquote : c ≠ '"') (cs : List Char) : read c cs = single c cs := by
  rw [read, if_neg halpha, if_neg hdigit, if_neg hquote]

theorem read_cases {motive : Char → List Char → Lexeme → Prop}
    (word : ∀ {c} cs, c.isAlpha = true → motive c cs (word c cs))
    (number : ∀ {c} cs, ¬c.isAlpha = true → c.isDigit = true → motive c cs (number c cs))
    (string : ∀ cs, motive '"' cs (string cs))
    (single : ∀ {c} cs, ¬c.isAlpha = true → ¬c.isDigit = true → c ≠ '"' → motive c cs (single c cs))
    (c : Char) (cs : List Char) : motive c cs (read c cs) := by
  by_cases halpha : c.isAlpha = true
  · rw [read_of_isAlpha halpha]
    exact word cs halpha
  by_cases hdigit : c.isDigit = true
  · rw [read_of_isDigit hdigit]
    exact number cs halpha hdigit
  by_cases hquote : c = '"'
  · rw [hquote, read_quote]
    exact string cs
  · rw [read_of_other halpha hdigit hquote]
    exact single cs halpha hdigit hquote

/-- At the front of any text the lexer reads the longest token there, or one character. -/
theorem reads_read (c : Char) (cs : List Char) :
    ∃ value, Reads (read c cs).rest (read c cs).kind (read c cs).raw value := by
  induction c, cs using read_cases with
  | word cs halpha => exact ⟨_, reads_word halpha cs⟩
  | number cs _ hdigit => exact ⟨_, reads_number hdigit cs⟩
  | string cs => exact reads_string cs
  | single cs halpha hdigit hquote => exact ⟨_, reads_single halpha hdigit hquote cs⟩

/-! ## A spelling alone -/

theorem read_of_isWord {c : Char} {cs : List Char} (h : IsWord (c :: cs)) :
    read c cs = ⟨wordKind (c :: cs), c :: cs, []⟩ := by
  rw [read_of_isAlpha h.cons.1, word, List.takeWhile_eq_self_iff.mpr h.cons.2,
    List.dropWhile_eq_nil_iff.mpr h.cons.2]

/-- A spelling with nothing behind it is read as what it spells. -/
theorem read_of_spells {kind : TokenKind} {value cs : List Char} {c : Char}
    (h : Spells kind (c :: cs) value) : read c cs = ⟨kind, c :: cs, []⟩ := by
  generalize hraw : c :: cs = raw at h
  cases h with
  | keyword hword hk =>
    rw [← hraw] at hword hk ⊢
    rw [read_of_isWord hword, hk, wordKind_text]
  | identifier hword hother =>
    rw [← hraw] at hword hother ⊢
    rw [read_of_isWord hword, wordKind_of_other hother]
  | integer hdigits =>
    rw [← hraw] at hdigits ⊢
    have hend := List.dropWhile_eq_nil_iff.mpr hdigits.cons.2
    rw [read_of_isDigit hdigits.cons.1, number_of_no_point c (by rw [hend]; exact nofun), hend,
      List.takeWhile_eq_self_iff.mpr hdigits.cons.2]
  | real hwhole hpart =>
    obtain ⟨_, whole, rfl, hc, hdigits⟩ := hwhole.exists_cons
    obtain ⟨d, part, rfl, hd, hmore⟩ := hpart.exists_cons
    cases hraw
    -- The digits run up to the point, and a digit behind it makes the literal a real one.
    obtain ⟨hrun, hstop⟩ := run_append_stop hdigits (by decide : Char.isDigit '.' = false) (d :: part)
    rw [List.append_eq, read_of_isDigit hc, number_of_point c hstop hd, hrun,
      List.takeWhile_eq_self_iff.mpr hmore, List.dropWhile_eq_nil_iff.mpr hmore]
  | string hbody =>
    cases hraw
    obtain ⟨hrun, hstop⟩ := run_append_stop (fun d hd => isStringChar_iff.mpr (hbody d hd))
      (by decide : isStringChar '"' = false) []
    rw [read_quote, string_of_closed hstop, hrun]
    rfl
  | punct p =>
    cases hraw
    obtain ⟨halpha, hdigit, hquote⟩ := Punct.char_plain p
    rw [read_of_other (Bool.eq_false_iff.mp halpha) (Bool.eq_false_iff.mp hdigit) hquote, single,
      Punct.ofChar?_char]

theorem value_of_spells {kind : TokenKind} {raw value : List Char} (h : Spells kind raw value)
    (rest : List Char) : Lexeme.value ⟨kind, raw, rest⟩ = String.ofList value := by
  cases h with
  | string => exact congrArg String.ofList List.dropLast_concat
  | keyword | identifier | integer | real | punct => rfl

theorem value_of_reads {l : Lexeme} {rest value : List Char} (h : Reads rest l.kind l.raw value) :
    l.value = String.ofList value := by
  obtain ⟨kind, raw, rest'⟩ := l
  cases h with
  | longest hspells => exact value_of_spells hspells rest'
  | invalid => rfl

end Lexeme

/-! ## Readings are unique -/

theorem Spells.unique {raw value value' : List Char} {kind kind' : TokenKind}
    (h : Spells kind raw value) (h' : Spells kind' raw value') : kind = kind' ∧ value = value' := by
  obtain ⟨c, cs, rfl⟩ := List.exists_cons_of_ne_nil h.ne_nil
  have hread := (Lexeme.read_of_spells h).symm.trans (Lexeme.read_of_spells h')
  obtain rfl : kind = kind' := congrArg Lexeme.kind hread
  have hvalue := (Lexeme.value_of_spells h []).symm.trans (Lexeme.value_of_spells h' [])
  exact ⟨rfl, String.ofList_injective hvalue⟩

theorem Reads.unique {rest rest' raw raw' value value' : List Char} {kind kind' : TokenKind}
    (h : Reads rest kind raw value) (h' : Reads rest' kind' raw' value')
    (htext : raw ++ rest = raw' ++ rest') : kind = kind' ∧ raw = raw' ∧ value = value' := by
  cases h with
  | longest hspells hlongest =>
    cases h' with
    | longest hspells' hlongest' =>
      -- Each of the lexemes is the longest, and both start the same text.
      have hle := hlongest' _ _ _ ⟨rest, htext⟩ hspells
      have hge := hlongest _ _ _ ⟨rest', htext.symm⟩ hspells'
      obtain ⟨rfl, -⟩ := List.append_inj htext (Nat.le_antisymm hle hge)
      obtain ⟨hkind, hvalue⟩ := hspells.unique hspells'
      exact ⟨hkind, rfl, hvalue⟩
    | invalid hnone => exact absurd hspells (hnone _ _ _ ⟨rest, htext⟩)
  | invalid hnone =>
    cases h' with
    | longest hspells' => exact absurd hspells' (hnone _ _ _ ⟨rest', htext.symm⟩)
    | invalid =>
      cases htext
      exact ⟨rfl, rfl, rfl⟩

end Lexer

end PalChecker
