import PalChecker.Token

/-!
# From text to tokens

A text is a sequence of gaps and lexemes: gaps are blanks and comments, a lexeme is the raw text of one
token. Both are taken as long as possible, and a character that begins no lexeme is one of its own, so
every text is accepted. `scan` turns the lexemes into located tokens and closes them with the end of file.
-/

namespace PalChecker.Lexer

/-! ## Character classes -/

def isLineEnd (c : Char) : Bool := c = '\n' || c = '\r'

def isBlank (c : Char) : Bool := c = ' ' || c = '\t' || isLineEnd c

/-- May follow the first letter of a word. -/
def isWordChar (c : Char) : Bool := c.isAlphanum || c = '_'

/-- May stand between the quotes of a string. -/
def isStringChar (c : Char) : Bool := !(c = '"' || isLineEnd c)

/-! ## Gaps -/

/-- Splits a text after its leading gap. Two slashes open a comment, which ends with its line. -/
def splitGap (inComment : Bool) : List Char → List Char × List Char
  | [] => ([], [])
  | c :: cs =>
    if inComment then
      let (gap, rest) := splitGap (!isLineEnd c) cs
      (c :: gap, rest)
    else if isBlank c then
      let (gap, rest) := splitGap false cs
      (c :: gap, rest)
    else if c = '/' ∧ cs.head? = some '/' then
      let (gap, rest) := splitGap true cs
      (c :: gap, rest)
    else ([], c :: cs)

theorem splitGap_append (inComment : Bool) (text : List Char) :
    (splitGap inComment text).1 ++ (splitGap inComment text).2 = text := by
  induction text generalizing inComment with
  | nil => rfl
  | cons c cs ih =>
    unfold splitGap
    split
    · simp [ih]
    split
    · simp [ih]
    split
    · simp [ih]
    · rfl

theorem length_splitGap_le (inComment : Bool) (text : List Char) :
    (splitGap inComment text).2.length ≤ text.length := by
  have := congrArg List.length (splitGap_append inComment text)
  simp only [List.length_append] at this
  omega

/-! ## Lexemes -/

/-- The kind and raw text of one token, and the text after it. -/
structure Lexeme where
  kind : TokenKind
  raw : List Char
  rest : List Char
  deriving DecidableEq, Repr

namespace Lexeme

/-- The raw text, for a string without its quotes. -/
def value (l : Lexeme) : String :=
  String.ofList (if l.kind = .stringLiteral then l.raw.tail.dropLast else l.raw)

def wordKind (word : List Char) : TokenKind :=
  match Keyword.ofWord? (String.ofList word) with
  | some k => .keyword k
  | none => .identifier

/-- The word that the letter `c` begins. -/
def word (c : Char) (cs : List Char) : Lexeme :=
  let raw := c :: cs.takeWhile isWordChar
  ⟨wordKind raw, raw, cs.dropWhile isWordChar⟩

/-- The number that the digit `c` begins. A point belongs to it only if a digit follows. -/
def number (c : Char) (cs : List Char) : Lexeme :=
  let whole := c :: cs.takeWhile Char.isDigit
  match cs.dropWhile Char.isDigit with
  | '.' :: d :: ds =>
    if d.isDigit then
      ⟨.realLiteral, whole ++ '.' :: d :: ds.takeWhile Char.isDigit, ds.dropWhile Char.isDigit⟩
    else ⟨.integerLiteral, whole, '.' :: d :: ds⟩
  | rest => ⟨.integerLiteral, whole, rest⟩

/-- The string opened by a quote. One that is not closed on its line leaves the quote alone. -/
def string (cs : List Char) : Lexeme :=
  match cs.dropWhile isStringChar with
  | '"' :: rest => ⟨.stringLiteral, '"' :: cs.takeWhile isStringChar ++ ['"'], rest⟩
  | _ => ⟨.invalid, ['"'], cs⟩

/-- A single character: punctuation, or nothing that the language knows. -/
def single (c : Char) (cs : List Char) : Lexeme :=
  match Punct.ofChar? c with
  | some p => ⟨.punct p, [c], cs⟩
  | none => ⟨.invalid, [c], cs⟩

/-- The lexeme at the front of the text `c :: cs`, which does not begin with a gap. -/
def read (c : Char) (cs : List Char) : Lexeme :=
  if c.isAlpha then word c cs
  else if c.isDigit then number c cs
  else if c = '"' then string cs
  else single c cs

theorem word_append (c : Char) (cs : List Char) : (word c cs).raw ++ (word c cs).rest = c :: cs := by
  simp [word]

theorem number_append (c : Char) (cs : List Char) :
    (number c cs).raw ++ (number c cs).rest = c :: cs := by
  have h := List.takeWhile_append_dropWhile (p := Char.isDigit) (l := cs)
  unfold number
  split
  · rename_i d ds heq
    rw [heq] at h
    conv => rhs; rw [← h]
    split <;> simp
  · simp

theorem string_append (cs : List Char) : (string cs).raw ++ (string cs).rest = '"' :: cs := by
  have h := List.takeWhile_append_dropWhile (p := isStringChar) (l := cs)
  unfold string
  split
  · rename_i rest heq
    rw [heq] at h
    simpa using h
  · rfl

theorem single_append (c : Char) (cs : List Char) :
    (single c cs).raw ++ (single c cs).rest = c :: cs := by
  unfold single
  split <;> rfl

/-- Nothing is lost: raw text and rest make up the text read. -/
theorem read_append (c : Char) (cs : List Char) : (read c cs).raw ++ (read c cs).rest = c :: cs := by
  unfold read
  split
  · exact word_append c cs
  split
  · exact number_append c cs
  split
  · rename_i h
    rw [h]
    exact string_append cs
  · exact single_append c cs

theorem read_raw_ne_nil (c : Char) (cs : List Char) : (read c cs).raw ≠ [] := by
  unfold read word number string single
  repeat' split
  all_goals simp

theorem length_read_rest_le (c : Char) (cs : List Char) : (read c cs).rest.length ≤ cs.length := by
  have h := congrArg List.length (read_append c cs)
  have := List.length_pos_iff.mpr (read_raw_ne_nil c cs)
  simp only [List.length_append, List.length_cons] at h
  omega

end Lexeme

/-! ## Token streams -/

/-- The tokens of `text`, which begins at `here`, closed by the end of file. -/
def scan (here : Location) (text : List Char) : List Token :=
  match _h : splitGap false text with
  | (gap, []) => [Token.endOfFile (here.advance gap)]
  | (gap, c :: cs) =>
    let start := here.advance gap
    let lexeme := Lexeme.read c cs
    ⟨lexeme.kind, lexeme.value, start⟩ :: scan (start.advance lexeme.raw) lexeme.rest
termination_by text.length
decreasing_by
  have h₁ := length_splitGap_le false text
  have h₂ := Lexeme.length_read_rest_le c cs
  simp only [_h, List.length_cons] at h₁
  omega

/-- The tokens of a whole source text. -/
def tokenize (source : String) : List Token := scan .start source.toList

end PalChecker.Lexer
