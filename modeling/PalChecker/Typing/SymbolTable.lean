import PalChecker.Typing.Symbol

/-!
# Nested scopes of declared names

A name is looked up from the innermost scope outwards. Within a scope the first declaration of a name
stands, and a later one is refused.
-/

namespace PalChecker

abbrev Scope := List Symbol

structure SymbolTable where
  /-- Innermost first. -/
  scopes : List Scope
  deriving DecidableEq, Repr

/-- What becomes of a symbol that is inserted. -/
inductive Insertion where
  | added (table : SymbolTable)
  | taken (holder : Symbol)
  /-- No scope is open. -/
  | unscoped
  deriving DecidableEq, Repr

def Scope.find? (name : String) (scope : Scope) : Option Symbol :=
  List.find? (fun s => s.name = name) scope

namespace SymbolTable

def empty : SymbolTable := ⟨[]⟩

def depth (t : SymbolTable) : Nat := t.scopes.length

def enter (t : SymbolTable) : SymbolTable := ⟨[] :: t.scopes⟩

/-- Closes the innermost scope, if one is open. -/
def exit (t : SymbolTable) : SymbolTable := ⟨t.scopes.tail⟩

def lookup? (name : String) (t : SymbolTable) : Option Symbol := t.scopes.findSome? (Scope.find? name)

def insert (s : Symbol) (t : SymbolTable) : Insertion :=
  match t.scopes with
  | [] => .unscoped
  | scope :: outer =>
    match scope.find? s.name with
    | some holder => .taken holder
    | none => .added ⟨(s :: scope) :: outer⟩

@[simp] theorem exit_enter (t : SymbolTable) : t.enter.exit = t := rfl

@[simp] theorem depth_exit (t : SymbolTable) : t.exit.depth = t.depth - 1 := List.length_tail

/-- A symbol that is added is found under its name, and every other name is found as before. -/
theorem lookup?_of_added {s : Symbol} {t u : SymbolTable} (h : t.insert s = .added u) (name : String) :
    u.lookup? name = if s.name = name then some s else t.lookup? name := by
  unfold insert at h
  split at h
  · cases h
  · rename_i scope outer hscopes
    split at h
    · cases h
    · cases h
      unfold lookup? Scope.find?
      rw [hscopes, List.findSome?_cons, List.find?_cons, List.findSome?_cons]
      by_cases hname : s.name = name
      · simp [hname]
      · simp [hname]

/-- Only the innermost scope is added to. -/
theorem exit_of_added {s : Symbol} {t u : SymbolTable} (h : t.insert s = .added u) : u.exit = t.exit := by
  unfold insert at h
  split at h
  · cases h
  · rename_i scope outer hscopes
    split at h
    · cases h
    · cases h
      unfold exit
      rw [hscopes, List.tail_cons, List.tail_cons]

end SymbolTable

end PalChecker
