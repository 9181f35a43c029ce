import PalChecker.Report

/-! # Files that cannot be read -/

namespace PalChecker

inductive ReadCause where
  | notFound | notADirectory | isADirectory | nameTooLong | notText | nulInPath
  deriving DecidableEq, Repr

namespace ReadCause

def all : List ReadCause := [notFound, notADirectory, isADirectory, nameTooLong, notText, nulInPath]

/-- The number by which the system knows the cause. -/
def number? : ReadCause → Option Nat
  | notFound => some 2
  | notADirectory => some 20
  | isADirectory => some 21
  | nameTooLong => some 36
  | notText | nulInPath => none

def text : ReadCause → String
  | notFound => "No such file or directory"
  | notADirectory => "Not a directory"
  | isADirectory => "Is a directory"
  | nameTooLong => "File name too long"
  | notText => "stream did not contain valid UTF-8"
  | nulInPath => "file name contained an unexpected NUL byte"

def message (c : ReadCause) : String :=
  match c.number? with
  | some number => s!"{c.text} (os error {number})"
  | none => c.text

end ReadCause

structure ReadFailure where
  path : String
  cause : String
  deriving DecidableEq, Repr

namespace ReadFailure

def ofCause (path : String) (c : ReadCause) : ReadFailure := ⟨path, c.message⟩

def message (f : ReadFailure) : String := s!"An I/O error occurred opening file {f.path}. {f.cause}"

def report (f : ReadFailure) : Report := ⟨.critical, "pal.script", none, f.message⟩

end ReadFailure

end PalChecker
