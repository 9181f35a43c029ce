import PalChecker.Diagnostic

/-! # Reports, one line each -/

namespace PalChecker

inductive Severity where
  | warning | error | critical
  deriving DecidableEq, Repr

namespace Severity

def text : Severity → String
  | warning => "WARNING"
  | error => "ERROR"
  | critical => "CRITICAL"

instance : ToString Severity := ⟨text⟩

end Severity

structure Report where
  severity : Severity
  /-- The part of the checker that speaks. -/
  issuer : String
  location : Option Location
  message : String
  deriving DecidableEq, Repr

namespace Report

/-- The line that is shown to a user. -/
def line (r : Report) : String :=
  let place := r.location.elim "unknown location" Location.render
  s!"PAL | {r.severity} | {place} | {r.message}"

/-- The line with its issuer. -/
def detailed (r : Report) : String :=
  let place := r.location.elim "unknown" Location.render
  s!"PAL | {r.severity} | {place} | {r.issuer} | {r.message}"

end Report

namespace Diagnostic

def issuer : Diagnostic → String
  | syntaxError .. => "pal.ast.parser"
  | alreadyDeclared .. | notDeclared .. | typeConflict .. => "pal.analyzers.semantic"

def report (d : Diagnostic) : Report := ⟨.error, d.issuer, some d.location, d.message⟩

end Diagnostic

end PalChecker
