import PalChecker.Parser.Program
import PalChecker.Trace

/-! # The trace of a parse -/

namespace PalChecker.Parser

/-- Passing a token leaves no trace, nor does a recovery that drops none. -/
def Action.event? : Action → Option Event
  | reported seq n found => some (.found ⟨seq, .syntaxError n found⟩)
  | suppressed n location => some (.suppressed n location)
  | skipped _ [] _ _ => none
  | skipped n tokens start finish => some (.skipped n tokens.length start finish)
  | consumed _ | discarded _ => none

namespace Outcome

def summary (o : Outcome) : Event :=
  .parsed (o.program.name.map Token.value) o.program.declarations.length o.program.statements.length
    o.errors.length

def trace (o : Outcome) : List Event := o.actions.filterMap Action.event? ++ [o.summary]

end Outcome

end PalChecker.Parser
