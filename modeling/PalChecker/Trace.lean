import PalChecker.Diagnostic
import PalChecker.Syntax.Tree
import PalChecker.Text.Quoted

/-! # What a check tells about its own work -/

namespace PalChecker

inductive TraceLevel where
  | trace | debug | warn
  deriving DecidableEq, Repr

def TraceLevel.text : TraceLevel → String
  | trace => "TRACE"
  | debug => "DEBUG"
  | warn => "WARN"

inductive Event where
  | loaded (path : String) (bytes : Nat)
  | parsing (script : String)
  | lexed (tokens : Nat)
  | suppressed (nonterminal : Nonterminal) (location : Location)
  | skipped (nonterminal : Nonterminal) (tokens : Nat) (start finish : Location)
  | found (finding : Finding)
  | parsed (name : Option String) (groups statements errors : Nat)
  /-- A name was declared while no scope was open. -/
  | unscoped (name : String)
  | checked (findings : Nat)
  deriving DecidableEq, Repr

namespace Event

def level : Event → TraceLevel
  | suppressed .. | skipped .. | found .. => .trace
  | loaded .. | parsing .. | lexed .. | parsed .. | checked .. => .debug
  | unscoped .. => .warn

def optionalName : Option String → String
  | some name => s!"Some({Quoted.quote name})"
  | none => "None"

def message : Event → String
  | loaded path bytes => s!"loaded {path} ({bytes} bytes)"
  | parsing script => s!"parsing {script}"
  | lexed tokens => s!"lexed {tokens} tokens"
  | suppressed n location => s!"suppressed {n} error at {location} while recovering"
  | skipped n tokens start finish =>
    s!"{n} recovery skipped {tokens} tokens from {start} to {finish}"
  | found f => s!"diagnostic #{f.seq}: {f.diagnostic.message}"
  | parsed name groups statements errors =>
    s!"parsed program {optionalName name}: {groups} declaration groups, {statements} statements, " ++
      s!"{errors} syntax errors"
  | unscoped name => s!"declaring '{name}' with no open scope"
  | checked findings => s!"semantic analysis found {findings} diagnostics"

end Event

end PalChecker
