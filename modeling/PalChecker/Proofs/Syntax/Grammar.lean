import PalChecker.Syntax.Nonterminal

/-!
# The grammar

Words are lists of token kinds. A rule says which words it derives; a construct derives what its rule
does.
-/

namespace PalChecker.Grammar

inductive Construct where
  | program | group | statement | condition | expression | term | factor
  deriving DecidableEq, Repr

inductive Rule where
  | token (kinds : List TokenKind)
  | empty
  | sequence (first second : Rule)
  | either (left right : Rule)
  /-- Any number of times, perhaps none. -/
  | many (body : Rule)
  | construct (name : Construct)
  deriving Repr

namespace Rule

def keyword (k : Keyword) : Rule := token [.keyword k]

def punct (p : Punct) : Rule := token [.punct p]

def optional (body : Rule) : Rule := either body empty

def some (body : Rule) : Rule := sequence body (many body)

/-- At least once, with `separator` in between. -/
def separated (separator body : Rule) : Rule := sequence body (many (sequence separator body))

def inOrder (parts : List Rule) : Rule := parts.foldr sequence empty

def oneOf (parts : List Rule) : Rule := parts.foldr either (token [])

end Rule

open Rule

def identifiers : Rule := separated (punct .comma) (token [.identifier])

def assignment : Rule := inOrder [token [.identifier], punct .equals, construct .expression]

def loop : Rule :=
  inOrder [keyword .untilCond, construct .condition, keyword .repeatBody,
    many (construct .statement), keyword .endLoop]

def conditional : Rule :=
  inOrder [keyword .ifCond, construct .condition, keyword .thenBranch, many (construct .statement),
    optional (inOrder [keyword .elseBranch, many (construct .statement)]), keyword .endIf]

def input : Rule := inOrder [keyword .input, identifiers]

def output : Rule :=
  inOrder [keyword .output, separated (punct .comma) (construct .expression)]

def operand : Rule :=
  oneOf [token [.identifier, .integerLiteral, .realLiteral],
    inOrder [punct .lparen, construct .expression, punct .rparen]]

def Construct.rule : Construct → Rule
  | program =>
    inOrder [keyword .program, token [.identifier], keyword .withDecls, some (construct group),
      keyword .inBody, some (construct statement), keyword .endProgram]
  | group => inOrder [identifiers, keyword .as, token [.keyword .real, .keyword .integer]]
  | statement => oneOf [assignment, loop, conditional, input, output]
  | condition =>
    inOrder [construct expression, token [.punct .less, .punct .equals, .punct .greater],
      construct expression]
  | expression => separated (token [.punct .plus, .punct .minus]) (construct term)
  | term => separated (token [.punct .star, .punct .slash]) (construct factor)
  | factor => inOrder [optional (token [.punct .plus, .punct .minus]), operand]

/-- The words of a rule. -/
inductive Derives : Rule → List TokenKind → Prop where
  | token {kinds : List TokenKind} {k : TokenKind} (h : k ∈ kinds) : Derives (.token kinds) [k]
  | empty : Derives .empty []
  | sequence {a b : Rule} {u v : List TokenKind} (hu : Derives a u) (hv : Derives b v) :
    Derives (.sequence a b) (u ++ v)
  | left {a b : Rule} {u : List TokenKind} (h : Derives a u) : Derives (.either a b) u
  | right {a b : Rule} {u : List TokenKind} (h : Derives b u) : Derives (.either a b) u
  | none {a : Rule} : Derives (.many a) []
  | more {a : Rule} {u v : List TokenKind} (hu : Derives a u) (hv : Derives (.many a) v) :
    Derives (.many a) (u ++ v)
  | construct {c : Construct} {u : List TokenKind} (h : Derives c.rule u) :
    Derives (.construct c) u

def Construct.Derives (c : Construct) (w : List TokenKind) : Prop := Grammar.Derives (.construct c) w

end PalChecker.Grammar
