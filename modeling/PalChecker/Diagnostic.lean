import PalChecker.SeqNumber
import PalChecker.Syntax.Nonterminal
import PalChecker.Typing.Symbol

/-!
# What can be wrong with a program

A finding is a diagnostic with the number of the node or error that caused it. Sorting findings by
number gives the order of discovery; those with the same number keep the order in which they were made.
-/

namespace PalChecker

inductive Diagnostic where
  | syntaxError (nonterminal : Nonterminal) (found : Token)
  | alreadyDeclared (token : Token) (existing : Symbol)
  | notDeclared (token : Token)
  | typeConflict (token : Token) (actual expected : ValueType)
  deriving DecidableEq, Repr

namespace Diagnostic

/-- The token that is blamed. -/
def token : Diagnostic → Token
  | syntaxError _ t | alreadyDeclared t _ | notDeclared t | typeConflict t _ _ => t

def location (d : Diagnostic) : Location := d.token.location

def IsSyntaxError : Diagnostic → Prop
  | syntaxError .. => True
  | _ => False

instance : (d : Diagnostic) → Decidable d.IsSyntaxError
  | syntaxError .. => isTrue trivial
  | alreadyDeclared .. | notDeclared .. | typeConflict .. => isFalse not_false

def message : Diagnostic → String
  | syntaxError n found => s!"Syntax error in {n}: unexpected {found}."
  | alreadyDeclared t existing =>
    s!"Identifier '{t.value}' is already declared at {existing.token.location}."
  | notDeclared t => s!"Identifier '{t.value}' is not declared."
  | typeConflict t actual expected =>
    s!"Type conflict at '{t.value}': expected {expected} but found {actual}."

end Diagnostic

structure Finding where
  seq : SeqNumber
  diagnostic : Diagnostic
  deriving DecidableEq, Repr

/-- The diagnostics in the order of discovery. -/
def Finding.ordered (findings : List Finding) : List Diagnostic :=
  (findings.mergeSort fun a b => a.seq ≤ b.seq).map diagnostic

end PalChecker
