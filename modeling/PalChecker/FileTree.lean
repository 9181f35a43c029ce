import PalChecker.ReadFailure
import PalChecker.Script

/-!
# A tree of files

A path is followed from the working directory, part by part. What lies above the working directory is
not known: its directories are there, its files are not.
-/

namespace PalChecker

inductive FileEntry where
  | file (content : ByteArray)
  | directory

/-- The entries below the working directory, each under the parts of its path. -/
structure FileTree where
  entries : List (List String × FileEntry)

namespace FileTree

def empty : FileTree := ⟨[]⟩

def maxNameBytes : Nat := 255

/-- No path is this long. -/
def pathLimit : Nat := 4096

def lookup? (t : FileTree) (place : List String) : Option FileEntry :=
  if place = [] then some .directory else t.entries.lookup place

/-- A directory at `place`, unless something is there. -/
def claim (t : FileTree) (place : List String) : FileTree :=
  if (t.lookup? place).isSome then t else ⟨(place, .directory) :: t.entries⟩

/-- Puts an entry where the rest of a path leads from the directory `here`. Each name on the way is made a
directory, also one that is left again by two dots. -/
def putFrom (t : FileTree) (e : FileEntry) (here : List String) : List String → FileTree
  | [] => t
  | [name] => ⟨(here ++ [name], e) :: t.entries⟩
  | ".." :: rest => t.putFrom e here.dropLast rest
  | name :: rest => (t.claim (here ++ [name])).putFrom e (here ++ [name]) rest

def put (path : String) (e : FileEntry) (t : FileTree) : FileTree := t.putFrom e [] (Path.names path)

/-! ## Following a path -/

inductive Place where
  | inside (parts : List String)
  | outside
  deriving DecidableEq

def Place.lookup? (t : FileTree) : Place → Option FileEntry
  | inside parts => t.lookup? parts
  | outside => some .directory

/-- From a directory one step on. -/
def enter (t : FileTree) (part : String) (here : Place) : Except ReadCause Place :=
  if Path.Stays part then .ok here
  else if part = ".." then
    match here with
    | .inside [] | .outside => .ok .outside
    | .inside parts => .ok (.inside parts.dropLast)
  else if maxNameBytes < part.utf8ByteSize then .error .nameTooLong
  else
    match here with
    | .outside => .error .notFound
    | .inside parts =>
      if (t.lookup? (parts ++ [part])).isSome then .ok (.inside (parts ++ [part])) else .error .notFound

/-- Follows the parts of a path. Only a directory has anything behind it, be it its own name. -/
def follow (t : FileTree) : List String → Place → Except ReadCause Place
  | [], here => .ok here
  | part :: rest, here =>
    match here.lookup? t with
    | some .directory => t.enter part here >>= t.follow rest
    | _ => .error .notADirectory

/-- The bytes of the file at `path`. -/
def bytes (t : FileTree) (path : String) : Except ReadCause ByteArray := do
  if path.contains '\x00' then throw .nulInPath
  if path = "" then throw .notFound
  if pathLimit ≤ path.utf8ByteSize then throw .nameTooLong
  let start := if path.startsWith "/" then Place.outside else .inside []
  match (← t.follow (Path.parts path) start).lookup? t with
  | some (.file content) => return content
  | _ => throw .isADirectory

def text (t : FileTree) (path : String) : Except ReadCause String := do
  match String.fromUTF8? (← t.bytes path) with
  | some content => return content
  | none => throw .notText

/-- The program text at `path`. -/
def script (t : FileTree) (path : String) : Except ReadFailure Script :=
  match t.text path with
  | .ok content => .ok (.ofFile path content)
  | .error cause => .error (.ofCause path cause)

end FileTree

end PalChecker
