import PalChecker.CommandLine.Exit

/-! # The command -/

namespace PalChecker.CommandLine

/-- The cause that the system gives a number for. Some calls return the number negated. -/
def systemCause (code : UInt32) (text : String) : String :=
  let number := code.toInt32.toInt.natAbs
  match ReadCause.all.find? fun c => c.number? = some number with
  | some c => c.message
  | none => s!"{text} (os error {number})"

def readCause : IO.Error → String
  | .noFileOrDirectory _ code text | .permissionDenied _ code text | .inappropriateType _ code text
  | .invalidArgument _ code text => systemCause code text
  | other => toString other

def readScript (path : String) : IO (Except ReadFailure Script) := do
  if path.contains '\x00' then return .error (.ofCause path .nulInPath)
  match ← (IO.FS.readBinFile path).toBaseIO with
  | .error e => return .error ⟨path, readCause e⟩
  | .ok bytes =>
    match String.fromUTF8? bytes with
    | some content => return .ok (.ofFile path content)
    | none => return .error (.ofCause path .notText)

def answer (arguments : List String) : IO Exit := do
  match Request.ofArguments arguments with
  | .check path => return .ofScript (← readScript path)
  | .flag f => return .ofFlag f
  | .misuse e => return .ofMisuse e

end PalChecker.CommandLine

def main (arguments : List String) : IO UInt32 := do
  let exit ← PalChecker.CommandLine.answer arguments
  (← IO.getStdout).putStr exit.stdout
  (← IO.getStderr).putStr exit.stderr
  return exit.code.toUInt32
