import PalChecker.Text.Combining
import PalChecker.Text.Unprintable

/-!
# Quoted texts

A text between double quotes, in which the quote, the backslash and every character that could not be
seen on its own are escaped.
-/

namespace PalChecker.Quoted

/-- A code point in hexadecimal digits. -/
def escapeCode (c : Char) : String :=
  "\\u\x7b" ++ String.ofList (Nat.toDigits 16 c.toNat) ++ "\x7d"

def escape (c : Char) : String :=
  match c with
  | '\x00' => "\\0"
  | '\t' => "\\t"
  | '\r' => "\\r"
  | '\n' => "\\n"
  | '\\' => "\\\\"
  | '"' => "\\\""
  | c => if CodeRange.cover combining c || CodeRange.cover unprintable c then escapeCode c else c.toString

def quote (text : String) : String := "\"" ++ String.join (text.toList.map escape) ++ "\""

end PalChecker.Quoted
