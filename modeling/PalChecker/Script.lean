import PalChecker.Analysis
import PalChecker.Path
import PalChecker.Token.Lexer

/-! # Program texts and where they come from -/

namespace PalChecker

structure Script where
  name : String
  path : String
  content : String
  deriving DecidableEq, Repr

namespace Script

/-- A text that is in no file. -/
def ofSource (name content : String) : Script := ⟨name, name, content⟩

def ofFile (path content : String) : Script := ⟨Path.fileName path, path, content⟩

def describe (s : Script) : String := s!"Script: {s.name} at {Quoted.quote s.path}"

instance : ToString Script := ⟨describe⟩

def tokens (s : Script) : List Token := Lexer.tokenize s.content

def diagnostics (s : Script) : List Diagnostic := Analysis.diagnostics s.tokens

/-! ## Traces -/

def loaded (s : Script) : Event := .loaded s.path s.content.utf8ByteSize

def readingTrace (s : Script) : List Event := [.parsing s.name, .lexed s.tokens.length]

def trace (s : Script) : List Event := s.readingTrace ++ Analysis.trace s.tokens

end Script

end PalChecker
