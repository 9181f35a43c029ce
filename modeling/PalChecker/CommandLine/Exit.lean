import PalChecker.CommandLine.Arguments
import PalChecker.ReadFailure
import PalChecker.Script
import PalChecker.Text.ControlSequence

/-! # What the command answers -/

namespace PalChecker.CommandLine

structure Exit where
  code : Nat
  stdout : String
  stderr : String
  deriving DecidableEq, Repr

/-! ## Texts -/

def version : String := "0.1.0"

def banner : String := s!"PAL compiler front-end {version}"

def usage : String := "Usage: pal <file>"

def flagUsage (f : Flag) : String := s!"Usage: pal {f.long} <file>"

def helpText : String :=
  "Checks a PAL program for syntax and semantic errors\n\n" ++ usage ++
    "\n\nArguments:\n  <file>  The PAL source file to check\n\n" ++
    "Options:\n  -h, --help     Print help\n  -V, --version  Print version\n"

namespace UsageError

open ControlSequence (strip)

def unexpected (argument : String) : String := s!"unexpected argument '{argument}' found"

/-- The paragraphs of the message that follow its first word. -/
def paragraphs : UsageError → List String
  | missingFile => ["the following required arguments were not provided:\n  <file>", usage]
  | emptyFile => ["a value is required for '<file>' but none was supplied"]
  | extra argument => [unexpected (strip argument), usage]
  | unknownFlag flag none =>
    [unexpected (strip flag), s!"  tip: to pass '{strip flag}' as a value, use '-- {strip flag}'", usage]
  | unknownFlag flag (some meant) =>
    [unexpected (strip flag), s!"  tip: a similar argument exists: '{meant.long}'", flagUsage meant]
  | flagValue flag value =>
    [s!"unexpected value '{strip value}' for '{flag.long}' found; no more were expected", flagUsage flag]

def message (e : UsageError) : String :=
  "error: " ++ "\n\n".intercalate (e.paragraphs ++ ["For more information, try '--help'."]) ++ "\n"

end UsageError

/-! ## Answers -/

/-- Each line with its end. -/
def lines (ls : List String) : String := String.join (ls.map (· ++ "\n"))

namespace Exit

def ofFlag : Flag → Exit
  | .help => ⟨0, helpText, ""⟩
  | .version => ⟨0, lines [s!"pal {version}"], ""⟩

def ofDiagnostics (ds : List Diagnostic) : Exit :=
  { code := if ds.isEmpty then 0 else 1
    stdout := lines (banner :: ds.map (fun d => d.report.line) ++ [s!"{ds.length} errors found."])
    stderr := "" }

/-- The answer to a file that was read, or could not be. -/
def ofScript : Except ReadFailure Script → Exit
  | .ok script => ofDiagnostics script.diagnostics
  | .error failure => ⟨2, lines [banner], lines [failure.message]⟩

def ofMisuse (e : UsageError) : Exit := ⟨2, "", e.message⟩

/-- The answer to `arguments`, where `read` gives the program text at a path. -/
def ofArguments (read : String → Except ReadFailure Script) (arguments : List String) : Exit :=
  match Request.ofArguments arguments with
  | .check path => ofScript (read path)
  | .flag f => ofFlag f
  | .misuse e => ofMisuse e

end Exit

end PalChecker.CommandLine
