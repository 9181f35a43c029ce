import PalChecker.Parser.Trace
import PalChecker.Typing.Program

/-! # Checking a token stream -/

namespace PalChecker.Analysis

/-- Everything wrong with a program, in the order of discovery. -/
def diagnostics (tokens : List Token) : List Diagnostic :=
  let outcome := Parser.parse tokens
  Finding.ordered (outcome.errors ++ Typing.check outcome.program)

def trace (tokens : List Token) : List Event :=
  let outcome := Parser.parse tokens
  outcome.trace ++ Typing.trace outcome.program

end PalChecker.Analysis
