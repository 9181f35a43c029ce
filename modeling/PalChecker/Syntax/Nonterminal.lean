import PalChecker.Token

/-!
# The nonterminals that report errors

After an error inside a nonterminal, reading resumes at a token of its synchronizing set, or at the
end of file. The sets hold what can begin the next statement, close the enclosing block or continue
the construct, so that later constructs are still checked.
-/

namespace PalChecker

inductive Nonterminal where
  | program | varDecls | identList | type | statement | assignment | loop | conditional
  | booleanExpr | factor
  deriving DecidableEq, Repr

/-! ## Kinds by role -/

namespace TokenKind

def statementStart : List TokenKind :=
  [identifier, keyword .untilCond, keyword .ifCond, keyword .input, keyword .output]

def blockEnd : List TokenKind :=
  [keyword .endLoop, keyword .endIf, keyword .elseBranch, keyword .endProgram]

/-- What begins an operand, its sign aside. -/
def operandStart : List TokenKind := [identifier, integerLiteral, realLiteral, punct .lparen]

def sign : List TokenKind := [punct .plus, punct .minus]

def factorStart : List TokenKind := operandStart ++ sign

def relationalOperator : List TokenKind := [punct .less, punct .equals, punct .greater]

end TokenKind

/-! ## Synchronizing sets -/

namespace Nonterminal

open TokenKind

def syncSet : Nonterminal → List TokenKind
  | program =>
    [keyword .program, keyword .withDecls, keyword .inBody] ++ statementStart ++ [keyword .endProgram]
  | varDecls =>
    [keyword .as, keyword .integer, keyword .real, keyword .inBody] ++ statementStart ++
      [keyword .endProgram]
  | identList =>
    [punct .comma, keyword .as, keyword .integer, keyword .real, keyword .inBody] ++ statementStart ++
      blockEnd
  | type =>
    [identifier, keyword .inBody, keyword .untilCond, keyword .ifCond, keyword .input, keyword .output,
      keyword .endProgram]
  | statement => statementStart ++ blockEnd
  | assignment => punct .equals :: statementStart ++ blockEnd
  | loop => keyword .repeatBody :: statementStart ++ blockEnd
  | conditional => keyword .thenBranch :: statementStart ++ blockEnd
  | booleanExpr =>
    relationalOperator ++
      [keyword .repeatBody, keyword .thenBranch, integerLiteral, realLiteral, punct .lparen] ++ sign ++
      statementStart ++ blockEnd
  -- A star or a slash begins no operand, so both are skipped.
  | factor =>
    factorStart ++ [punct .rparen, punct .comma] ++ relationalOperator ++
      [keyword .repeatBody, keyword .thenBranch, keyword .untilCond, keyword .ifCond, keyword .input,
        keyword .output] ++ blockEnd

def SynchronizesOn (n : Nonterminal) (k : TokenKind) : Prop := k ∈ n.syncSet

instance (n : Nonterminal) (k : TokenKind) : Decidable (n.SynchronizesOn k) :=
  inferInstanceAs (Decidable (k ∈ n.syncSet))

theorem synchronizesOn_endProgram (n : Nonterminal) :
    n.SynchronizesOn (.keyword .endProgram) := by
  cases n <;> decide

def text : Nonterminal → String
  | program => "<Program>"
  | varDecls => "<VarDecls>"
  | identList => "<IdentList>"
  | type => "<Type>"
  | statement => "<Statement>"
  | assignment => "<Assignment>"
  | loop => "<Loop>"
  | conditional => "<Conditional>"
  | booleanExpr => "<BooleanExpr>"
  | factor => "<Factor>"

instance : ToString Nonterminal := ⟨text⟩

end Nonterminal

end PalChecker
