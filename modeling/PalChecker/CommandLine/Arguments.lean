import PalChecker.Text.Similarity

/-!
# Reading the arguments

The command takes one file. Arguments are read from left to right, and the first one that settles the
matter does so. After two dashes every argument is a file, even one that begins with a dash.
-/

namespace PalChecker.CommandLine

inductive Flag where
  | help | version
  deriving DecidableEq, Repr

namespace Flag

def name : Flag → String
  | help => "help"
  | version => "version"

def long (f : Flag) : String := "--" ++ f.name

def ofLetter? : Char → Option Flag
  | 'h' => some help
  | 'V' => some version
  | _ => none

def ofName? (name : String) : Option Flag := [help, version].find? fun f => f.name = name

/-- Names less similar than this are not taken for misspelt. -/
def leastSimilarity : Float := 0.7

/-- The flag that a misspelt name stands for: the most similar one, the later of two that are equally so. -/
def suggestion? (name : String) : Option Flag :=
  let near (f : Flag) : Float := Similarity.similarity name.toList f.name.toList
  let candidates := [help, version].filter fun f => leastSimilarity < near f
  candidates.foldl (fun best f => if best.any fun b => near f < near b then best else some f) none

end Flag

inductive UsageError where
  | missingFile
  | emptyFile
  /-- One file too many. -/
  | extra (argument : String)
  | unknownFlag (flag : String) (meant : Option Flag)
  | flagValue (flag : Flag) (value : String)
  deriving DecidableEq, Repr

inductive Request where
  | check (path : String)
  | flag (flag : Flag)
  | misuse (error : UsageError)
  deriving DecidableEq, Repr

namespace Request

/-- A flag is obeyed, unless the file read before it has an empty path. -/
def obey (file : Option String) (f : Flag) : Request :=
  if file = some "" then .misuse .emptyFile else .flag f

/-- A flag written with two dashes. A value may follow an equals sign, but no flag takes one. -/
def ofLong (file : Option String) (text : String) : Request :=
  match text.splitOn "=" with
  | [] | [_] =>
    match Flag.ofName? text with
    | some f => obey file f
    | none => .misuse (.unknownFlag ("--" ++ text) (Flag.suggestion? text))
  | name :: value =>
    match Flag.ofName? name with
    | some f => .misuse (.flagValue f ("=".intercalate value))
    | none => .misuse (.unknownFlag ("--" ++ name) (Flag.suggestion? name))

/-- A flag written with one dash. Each letter is a flag, so the first one decides. -/
def ofShort (file : Option String) (letter : Char) : Request :=
  match Flag.ofLetter? letter with
  | some f => obey file f
  | none => .misuse (.unknownFlag (String.ofList ['-', letter]) none)

def ofFile : Option String → Request
  | none => .misuse .missingFile
  | some "" => .misuse .emptyFile
  | some path => .check path

/-- Takes `argument` as the file to check. -/
def withFile (file : Option String) (argument : String) (rest : Option String → Request) : Request :=
  if file.isSome then .misuse (.extra argument) else rest (some argument)

/-- Reads the arguments after `file`, which is none if no file came yet. -/
def read (onlyFiles : Bool) (file : Option String) : List String → Request
  | [] => ofFile file
  | argument :: rest =>
    if onlyFiles then withFile file argument fun file => read true file rest
    else
      match argument.toList with
      | ['-', '-'] => read true file rest
      | '-' :: '-' :: text => ofLong file (String.ofList text)
      | '-' :: letter :: _ => ofShort file letter
      | _ => withFile file argument fun file => read false file rest

def ofArguments (arguments : List String) : Request := read false none arguments

end Request

end PalChecker.CommandLine
