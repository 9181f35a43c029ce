import PalChecker.Location

/-!
# Classified tokens

A token is a kind, its text and where the text begins. Category kinds such as `identifier` stand for
any token of their category, keywords and punctuation for one exact terminal.
-/

namespace PalChecker

/-! ## Keywords -/

inductive Keyword where
  | program | withDecls | inBody | endProgram | as | real | integer | untilCond | repeatBody
  | endLoop | ifCond | thenBranch | elseBranch | endIf | input | output
  deriving DecidableEq, Repr

namespace Keyword

/-- The keywords, in the order in which a program can first use them. -/
def all : List Keyword :=
  [program, withDecls, inBody, endProgram, as, real, integer, untilCond, repeatBody, endLoop, ifCond,
    thenBranch, elseBranch, endIf, input, output]

def text : Keyword → String
  | program => "PROGRAM"
  | withDecls => "WITH"
  | inBody => "IN"
  | endProgram => "END"
  | as => "AS"
  | real => "REAL"
  | integer => "INTEGER"
  | untilCond => "UNTIL"
  | repeatBody => "REPEAT"
  | endLoop => "ENDLOOP"
  | ifCond => "IF"
  | thenBranch => "THEN"
  | elseBranch => "ELSE"
  | endIf => "ENDIF"
  | input => "INPUT"
  | output => "OUTPUT"

/-- The keyword spelled exactly so; case matters. -/
def ofWord? (word : String) : Option Keyword := all.find? fun k => k.text = word

@[simp] theorem ofWord?_text (k : Keyword) : ofWord? k.text = some k := by cases k <;> rfl

theorem ofWord?_eq_some_iff {word : String} {k : Keyword} : ofWord? word = some k ↔ word = k.text := by
  constructor
  · intro h
    unfold ofWord? at h
    have := List.find?_some h
    exact (of_decide_eq_true this).symm
  · rintro rfl
    exact ofWord?_text k

end Keyword

/-! ## Punctuation -/

inductive Punct where
  | comma | equals | plus | minus | star | slash | less | greater | lparen | rparen
  deriving DecidableEq, Repr

namespace Punct

def all : List Punct := [comma, equals, plus, minus, star, slash, less, greater, lparen, rparen]

theorem mem_all (p : Punct) : p ∈ all := by cases p <;> decide

def char : Punct → Char
  | comma => ','
  | equals => '='
  | plus => '+'
  | minus => '-'
  | star => '*'
  | slash => '/'
  | less => '<'
  | greater => '>'
  | lparen => '('
  | rparen => ')'

def text (p : Punct) : String := p.char.toString

def ofChar? (c : Char) : Option Punct := all.find? fun p => p.char = c

@[simp] theorem ofChar?_char (p : Punct) : ofChar? p.char = some p := by cases p <;> decide

theorem ofChar?_eq_some_iff {c : Char} {p : Punct} : ofChar? c = some p ↔ c = p.char := by
  constructor
  · intro h
    unfold ofChar? at h
    have := List.find?_some h
    exact (of_decide_eq_true this).symm
  · rintro rfl
    exact ofChar?_char p

/-- The punctuation spelled by the whole of `symbol`. -/
def ofSymbol? (symbol : String) : Option Punct := all.find? fun p => p.text = symbol

end Punct

/-! ## Kinds -/

inductive TokenKind where
  | identifier
  | integerLiteral
  | realLiteral
  | booleanLiteral
  | stringLiteral
  | keyword (k : Keyword)
  | punct (p : Punct)
  /-- A character that no token begins with. -/
  | invalid
  | endOfFile
  deriving DecidableEq, Repr

namespace TokenKind

/-- A kind as named in a message. -/
def describe : TokenKind → String
  | identifier => "identifier"
  | integerLiteral => "integer literal"
  | realLiteral => "real literal"
  | booleanLiteral => "boolean literal"
  | stringLiteral => "string literal"
  | keyword k => k.text
  | punct p => s!"'{p.text}'"
  | invalid => "invalid token"
  | endOfFile => "end of file"

instance : ToString TokenKind := ⟨describe⟩

end TokenKind

/-! ## Tokens -/

structure Token where
  kind : TokenKind
  value : String
  location : Location
  deriving DecidableEq, Repr

namespace Token

/-- The token that closes every stream. -/
def endOfFile (location : Location) : Token := ⟨.endOfFile, "", location⟩

@[simp] theorem endOfFile_kind (location : Location) : (endOfFile location).kind = .endOfFile := rfl

/-- A token as named in a message. -/
def describe (t : Token) : String :=
  if t.kind = .endOfFile then "end of file" else s!"'{t.value}'"

instance : ToString Token := ⟨describe⟩

end Token

end PalChecker
