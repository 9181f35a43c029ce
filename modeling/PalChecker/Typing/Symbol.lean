import PalChecker.Syntax.Tree

/-! # Value types and declared names -/

namespace PalChecker

/-! ## Value types -/

/-- `undefined` is the type of what is already known to be wrong; it conflicts with nothing. -/
inductive ValueType where
  | integer | real | boolean | string | undefined
  deriving DecidableEq, Repr

namespace ValueType

def text : ValueType → String
  | integer => "Integer"
  | real => "Real"
  | boolean => "Boolean"
  | string => "String"
  | undefined => "Undefined"

instance : ToString ValueType := ⟨text⟩

/-- The type of a literal of kind `k`. -/
def ofLiteral? : (k : TokenKind) → Option ValueType
  | .integerLiteral => some integer
  | .realLiteral => some real
  | .booleanLiteral => some boolean
  | .stringLiteral => some string
  | _ => none

def ofDeclared : Option DeclType → ValueType
  | some .integer => integer
  | some .real => real
  | none => undefined

/-- Values are never converted, so two known types conflict unless they are the same. -/
def Conflicts (a b : ValueType) : Prop := a ≠ undefined ∧ b ≠ undefined ∧ a ≠ b

instance (a b : ValueType) : Decidable (a.Conflicts b) := inferInstanceAs (Decidable (_ ∧ _ ∧ _))

end ValueType

/-! ## Symbols -/

/-- A name with the token and type of its declaration. -/
structure Symbol where
  token : Token
  type : ValueType
  deriving DecidableEq, Repr

def Symbol.name (s : Symbol) : String := s.token.value

end PalChecker
