import PalChecker.Token.Lexer

/-!
# The lexical grammar

The tokens of the language as a parsing expression grammar. A choice takes the first alternative that
succeeds, a repetition never gives back what it took, and gaps are skipped between tokens but not within
them.
-/

namespace PalChecker.Lexer

/-- The rules that a match is named for. -/
inductive Rule where
  | word | real | integer | string | punct | invalid | endOfInput
  deriving DecidableEq, Repr

inductive Peg where
  | empty
  /-- One character of a class. -/
  | char (p : Char → Bool)
  | seq (first second : Peg)
  | choice (first second : Peg)
  | star (e : Peg)
  /-- Succeeds without taking anything if `e` fails. -/
  | no (e : Peg)
  | rule (r : Rule) (e : Peg)

/-- A match of a rule: the text where it begins and the text where it ends. -/
structure Match where
  rule : Rule
  start : List Char
  rest : List Char
  deriving DecidableEq, Repr

namespace Peg

/-! ## What an expression does -/

/-- On a text an expression fails, or gives the matches of its rules and the text that is left. -/
inductive Yields : Peg → List Char → Option (List Match × List Char) → Prop where
  | empty {text : List Char} : Yields .empty text (some ([], text))
  | char {p : Char → Bool} {c : Char} {cs : List Char} (hc : p c = true) :
    Yields (.char p) (c :: cs) (some ([], cs))
  | char_fail {p : Char → Bool} {c : Char} {cs : List Char} (hc : p c = false) :
    Yields (.char p) (c :: cs) none
  | char_end {p : Char → Bool} : Yields (.char p) [] none
  | seq {a b : Peg} {text mid rest : List Char} {ms ms' : List Match} :
    Yields a text (some (ms, mid)) → Yields b mid (some (ms', rest)) →
      Yields (.seq a b) text (some (ms ++ ms', rest))
  | seq_fail {a b : Peg} {text : List Char} : Yields a text none → Yields (.seq a b) text none
  | seq_fail_behind {a b : Peg} {text mid : List Char} {ms : List Match} :
    Yields a text (some (ms, mid)) → Yields b mid none → Yields (.seq a b) text none
  | choice {a b : Peg} {text rest : List Char} {ms : List Match} :
    Yields a text (some (ms, rest)) → Yields (.choice a b) text (some (ms, rest))
  | choice_else {a b : Peg} {text : List Char} {outcome : Option (List Match × List Char)} :
    Yields a text none → Yields b text outcome → Yields (.choice a b) text outcome
  | star {e : Peg} {text mid rest : List Char} {ms ms' : List Match} :
    Yields e text (some (ms, mid)) → Yields (.star e) mid (some (ms', rest)) →
      Yields (.star e) text (some (ms ++ ms', rest))
  | star_end {e : Peg} {text : List Char} : Yields e text none → Yields (.star e) text (some ([], text))
  | no {e : Peg} {text : List Char} : Yields e text none → Yields (.no e) text (some ([], text))
  | no_fail {e : Peg} {text rest : List Char} {ms : List Match} :
    Yields e text (some (ms, rest)) → Yields (.no e) text none
  | rule {r : Rule} {e : Peg} {text rest : List Char} {ms : List Match} :
    Yields e text (some (ms, rest)) → Yields (.rule r e) text (some ([⟨r, text, rest⟩], rest))
  | rule_fail {r : Rule} {e : Peg} {text : List Char} : Yields e text none → Yields (.rule r e) text none

theorem Yields.unique {e : Peg} {text : List Char} {outcome outcome' : Option (List Match × List Char)}
    (h : e.Yields text outcome) (h' : e.Yields text outcome') : outcome = outcome' := by
  -- The second derivation can only take the step of the first, which the part it starts with decides.
  induction h generalizing outcome' with
  | empty => cases h'; rfl
  | char hc =>
    cases h' with
    | char => rfl
    | char_fail hfail => exact absurd hc (Bool.eq_false_iff.mp hfail)
  | char_fail hfail =>
    cases h' with
    | char hc => exact absurd hc (Bool.eq_false_iff.mp hfail)
    | char_fail => rfl
  | char_end => cases h'; rfl
  | seq _ _ iha ihb =>
    cases h' with
    | seq ha hb => cases iha ha; cases ihb hb; rfl
    | seq_fail ha => cases iha ha
    | seq_fail_behind ha hb => cases iha ha; cases ihb hb
  | seq_fail _ ih =>
    cases h' with
    | seq ha | seq_fail_behind ha => cases ih ha
    | seq_fail => rfl
  | seq_fail_behind _ _ iha ihb =>
    cases h' with
    | seq ha hb => cases iha ha; cases ihb hb
    | seq_fail ha => cases iha ha
    | seq_fail_behind => rfl
  | choice _ ih =>
    cases h' with
    | choice ha => exact ih ha
    | choice_else ha => cases ih ha
  | choice_else _ _ iha ihb =>
    cases h' with
    | choice ha => cases iha ha
    | choice_else _ hb => exact ihb hb
  | star _ _ ihe ihmore =>
    cases h' with
    | star he hmore => cases ihe he; cases ihmore hmore; rfl
    | star_end he => cases ihe he
  | star_end _ ih =>
    cases h' with
    | star he => cases ih he
    | star_end => rfl
  | no _ ih =>
    cases h' with
    | no => rfl
    | no_fail he => cases ih he
  | no_fail _ ih =>
    cases h' with
    | no he => cases ih he
    | no_fail => rfl
  | rule _ ih =>
    cases h' with
    | rule he => cases ih he; rfl
    | rule_fail he => cases ih he
  | rule_fail _ ih =>
    cases h' with
    | rule he => cases ih he
    | rule_fail => rfl

/-! ## The grammar -/

def any : Peg := char fun _ => true

def lit (c : Char) : Peg := char fun d => d = c

def plus (e : Peg) : Peg := seq e (star e)

def newline : Peg := choice (lit '\n') (choice (seq (lit '\r') (lit '\n')) (lit '\r'))

def whitespace : Peg := choice (lit ' ') (choice (lit '\t') (choice (lit '\r') (lit '\n')))

def comment : Peg := seq (seq (lit '/') (lit '/')) (star (seq (no newline) any))

def word : Peg := seq (char Char.isAlpha) (star (choice (char Char.isAlphanum) (lit '_')))

def real : Peg := seq (plus (char Char.isDigit)) (seq (lit '.') (plus (char Char.isDigit)))

def integer : Peg := plus (char Char.isDigit)

def string : Peg := seq (lit '"') (seq (star (seq (no (lit '"')) (seq (no newline) any))) (lit '"'))

def punct : Peg :=
  choice (lit ',') <| choice (lit '=') <| choice (lit '+') <| choice (lit '-') <| choice (lit '*') <|
    choice (lit '/') <| choice (lit '<') <| choice (lit '>') <| choice (lit '(') (lit ')')

/-- A number with a point is tried before one without, and a single character last. -/
def token : Peg :=
  choice (rule .word word) <| choice (rule .real real) <| choice (rule .integer integer) <|
    choice (rule .string string) <| choice (rule .punct punct) (rule .invalid any)

/-- What is skipped wherever a gap may be. -/
def skip : Peg := seq (star whitespace) (star (seq comment (star whitespace)))

/-- Skips gaps between the repetitions. -/
def spaced (e : Peg) : Peg := choice (seq e (star (seq skip e))) empty

/-- A whole text: tokens and gaps, and then the end of input. -/
def tokens : Peg := seq skip (seq (spaced token) (seq skip (rule .endOfInput (no any))))

end Peg

/-! ## The tokens of the matches -/

/-- Without the quotes at both ends. -/
def trimQuotes (text : List Char) : List Char :=
  ((text.dropWhile fun c => c = '"').reverse.dropWhile fun c => c = '"').reverse

def Rule.token (rule : Rule) (text : List Char) (location : Location) : Token :=
  match rule with
  | word =>
    match Keyword.ofWord? (String.ofList text) with
    | some k => ⟨.keyword k, k.text, location⟩
    | none => ⟨.identifier, String.ofList text, location⟩
  | real => ⟨.realLiteral, String.ofList text, location⟩
  | integer => ⟨.integerLiteral, String.ofList text, location⟩
  | string => ⟨.stringLiteral, String.ofList (trimQuotes text), location⟩
  | punct =>
    match Punct.ofSymbol? (String.ofList text) with
    | some p => ⟨.punct p, p.text, location⟩
    | none => ⟨.invalid, String.ofList text, location⟩
  | invalid => ⟨.invalid, String.ofList text, location⟩
  | endOfInput => .endOfFile location

/-- The token of a match in the text `source`. -/
def Match.token (source : List Char) (m : Match) : Token :=
  m.rule.token (m.start.take (m.start.length - m.rest.length))
    (Location.start.advance (source.take (source.length - m.start.length)))

end PalChecker.Lexer
