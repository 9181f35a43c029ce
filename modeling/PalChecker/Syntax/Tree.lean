import PalChecker.SeqNumber
import PalChecker.Token

/-!
# The syntax tree

A tree is complete even for a malformed program: an operand that could not be read is an `error`
expression, and the other missing parts are optional. Each node is stamped with the place where it
starts and with the number it got when it was recognised.
-/

namespace PalChecker

structure Stamp where
  location : Location
  seq : SeqNumber
  deriving DecidableEq, Repr

structure Ident where
  stamp : Stamp
  token : Token
  deriving DecidableEq, Repr

/-! ## Operators -/

inductive BinaryOp where
  | add | sub | mul | div
  deriving DecidableEq, Repr

namespace BinaryOp

def text : BinaryOp → String
  | add => "+"
  | sub => "-"
  | mul => "*"
  | div => "/"

def additive? : TokenKind → Option BinaryOp
  | .punct .plus => some add
  | .punct .minus => some sub
  | _ => none

def multiplicative? : TokenKind → Option BinaryOp
  | .punct .star => some mul
  | .punct .slash => some div
  | _ => none

end BinaryOp

inductive Sign where
  | plus | minus
  deriving DecidableEq, Repr

namespace Sign

def text : Sign → String
  | plus => "+"
  | minus => "-"

def ofKind? : TokenKind → Option Sign
  | .punct .plus => some plus
  | .punct .minus => some minus
  | _ => none

end Sign

inductive RelationalOp where
  | less | equal | greater
  deriving DecidableEq, Repr

namespace RelationalOp

def text : RelationalOp → String
  | less => "<"
  | equal => "="
  | greater => ">"

def ofKind? : TokenKind → Option RelationalOp
  | .punct .less => some less
  | .punct .equals => some equal
  | .punct .greater => some greater
  | _ => none

end RelationalOp

/-! ## Expressions -/

inductive Expr where
  /-- An identifier or a number. -/
  | value (stamp : Stamp) (token : Token)
  | unary (stamp : Stamp) (sign : Sign) (operand : Expr)
  | binary (stamp : Stamp) (left : Expr) (op : BinaryOp) (right : Expr)
  | group (stamp : Stamp) (inner : Expr)
  /-- An operand that could not be read. -/
  | error (stamp : Stamp)
  deriving DecidableEq, Repr

namespace Expr

def stamp : Expr → Stamp
  | value stamp _ | unary stamp _ _ | binary stamp _ _ _ | group stamp _ | error stamp => stamp

/-- The token that stands for an expression in a message: its leftmost value. -/
def representative? : Expr → Option Token
  | value _ token => some token
  | unary _ _ operand => operand.representative?
  | binary _ left _ _ => left.representative?
  | group _ inner => inner.representative?
  | error _ => none

/-- Has no binary operator. -/
def IsSingle : Expr → Prop
  | value _ _ | error _ => True
  | unary _ _ operand => operand.IsSingle
  | group _ inner => inner.IsSingle
  | binary .. => False

instance decidableIsSingle : (e : Expr) → Decidable e.IsSingle
  | value _ _ | error _ => isTrue trivial
  | unary _ _ operand => operand.decidableIsSingle
  | group _ inner => inner.decidableIsSingle
  | binary .. => isFalse not_false

/-- Nesting is shown for binary operators alone; the parentheses of the source are not. -/
def display : Expr → String
  | value _ token => token.value
  | unary _ sign operand => sign.text ++ operand.display
  | binary _ left op right => "(" ++ left.display ++ " " ++ op.text ++ " " ++ right.display ++ ")"
  | group _ inner => inner.display
  | error _ => "<error>"

end Expr

/-- A comparison; the operator is missing if it could not be read. -/
structure Condition where
  stamp : Stamp
  left : Expr
  op : Option RelationalOp
  right : Expr
  deriving DecidableEq, Repr

/-! ## Statements -/

inductive Statement where
  | assignment (stamp : Stamp) (target : Ident) (value : Expr)
  | loop (stamp : Stamp) (condition : Condition) (body : List Statement)
  | conditional (stamp : Stamp) (condition : Condition) (whenTrue : List Statement)
      (otherwise : Option (List Statement))
  | input (stamp : Stamp) (targets : List Ident)
  | output (stamp : Stamp) (values : List Expr)
  deriving Repr

namespace Statement

def stamp : Statement → Stamp
  | assignment stamp _ _ | loop stamp _ _ | conditional stamp _ _ _ | input stamp _
  | output stamp _ => stamp

def form : Statement → String
  | assignment .. => "Assignment"
  | loop .. => "Loop"
  | conditional .. => "Conditional"
  | input .. => "Input"
  | output .. => "Output"

end Statement

/-! ## Programs -/

/-- The types a declaration can name. -/
inductive DeclType where
  | integer | real
  deriving DecidableEq, Repr

/-- A group of names declared with one type, which is missing if it could not be read. -/
structure Declaration where
  stamp : Stamp
  idents : List Ident
  type : Option DeclType
  deriving DecidableEq, Repr

structure Program where
  name : Option Token
  declarations : List Declaration
  statements : List Statement
  location : Location
  deriving Repr

end PalChecker
