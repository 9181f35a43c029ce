/-!
# Control sequences

What remains of a text when it is not written to a terminal: control characters and the sequences that
steer a terminal are left out, blanks and line ends stay.
-/

namespace PalChecker.ControlSequence

/-- Where in a sequence a text is. -/
inductive State where
  /-- In no sequence. -/
  | ground
  | escape
  /-- After an escape and a character that announces another. -/
  | escapeMore
  /-- In a sequence of parameters, which a letter ends. -/
  | parameters
  /-- Before the parameters of a device string. -/
  | deviceStart
  | deviceParameters
  | deviceMore
  /-- In a string that is for the terminal alone. -/
  | string
  /-- In a command to the operating system. -/
  | command
  deriving DecidableEq, Repr

/-- A line end or a tab, which is shown even inside a sequence. -/
def isBreak (c : Char) : Bool := c = '\t' || c = '\n' || c = '\x0c' || c = '\r'

/-- Neither a control character nor the deletion mark. -/
def isShown (c : Char) : Bool := isBreak c || (' ' ≤ c && c ≠ '\x7f')

def isAscii (c : Char) : Bool := c.toNat < 0x80

/-- One of the bytes that encode the character ends a string. -/
def endsString (c : Char) : Bool := (String.utf8EncodeChar c).contains 0x9c

namespace State

def showsBreak : State → Bool
  | ground | escape | escapeMore | parameters => true
  | deviceStart | deviceParameters | deviceMore | string | command => false

/-- The character `c` is shown where it stands. -/
def shows (s : State) (c : Char) : Bool := if isBreak c then s.showsBreak else s = ground && isShown c

/-- Where a character leads that opens a sequence or goes on with one. -/
def within (s : State) (c : Char) : State :=
  match s with
  | ground => ground
  | escape =>
    if c = '[' then parameters
    else if c = ']' then command
    else if c = 'P' then deviceStart
    else if c = 'X' || c = '^' || c = '_' then string
    else if ' ' ≤ c && c ≤ '/' then escapeMore
    else if '0' ≤ c && c ≤ '~' then ground
    else escape
  | escapeMore => if '0' ≤ c && c ≤ '~' then ground else escapeMore
  | parameters => if '@' ≤ c && c ≤ '~' then ground else parameters
  | deviceStart =>
    if ' ' ≤ c && c ≤ '/' then deviceMore
    else if '0' ≤ c && c ≤ '?' then deviceParameters
    else if '@' ≤ c && c ≤ '~' then string
    else deviceStart
  | deviceParameters =>
    if ' ' ≤ c && c ≤ '/' then deviceMore
    else if '<' ≤ c && c ≤ '~' then string
    else deviceParameters
  | deviceMore => if '0' ≤ c && c ≤ '~' then string else deviceMore
  | string => if endsString c then ground else string
  | command => if c = '\x07' then ground else command

/-- Where a character leads. An escape opens a sequence anywhere, and a cancel ends one. -/
def next (s : State) (c : Char) : State :=
  if c = '\x1b' then escape else if c = '\x18' || c = '\x1a' then ground else s.within c

end State

/-- The characters of a text that are shown. A break inside a sequence is followed by text up to the next
control character, where the sequence goes on unless a wider character ended it. -/
def shown (inText : Bool) (s : State) : List Char → List Char
  | [] => []
  | c :: rest =>
    if isShown c && (inText || s.shows c) then
      c :: shown true (if isAscii c then s else .ground) rest
    else shown false (s.next c) rest

def strip (text : String) : String := String.ofList (shown true .ground text.toList)

end PalChecker.ControlSequence
