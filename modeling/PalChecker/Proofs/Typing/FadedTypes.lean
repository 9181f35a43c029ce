import Mathlib.Data.List.Flatten
import Mathlib.Data.List.Forall2
import PalChecker.Proofs.Typing.Sides

/-!
# Checking with fewer types known

A name may have lost its type. Where it is used then, the same is found as before or nothing, and where it
is declared the same.
-/

namespace PalChecker

/-! ## Tables -/

/-- The same name at the same place, with the same type or none that is known. -/
def Symbol.Fades (s s' : Symbol) : Prop :=
  s'.token = s.token ∧ (s'.type = .undefined ∨ s'.type = s.type)

def SymbolTable.Fades (table table' : SymbolTable) : Prop :=
  List.Forall₂ (List.Forall₂ Symbol.Fades) table.scopes table'.scopes

theorem Symbol.Fades.refl (s : Symbol) : s.Fades s := ⟨rfl, .inr rfl⟩

theorem Scope.find?_fades {scope scope' : Scope} (h : List.Forall₂ Symbol.Fades scope scope')
    (name : String) : Option.Rel Symbol.Fades (scope.find? name) (scope'.find? name) := by
  unfold Scope.find?
  induction h with
  | nil => exact .none
  | @cons s s' _ _ hs _ ih =>
    have hname : s'.name = s.name := congrArg Token.value hs.1
    by_cases hsame : s.name = name
    · rw [List.find?_cons_of_pos (by simpa using hsame),
        List.find?_cons_of_pos (by simpa using hname.trans hsame)]
      exact .some hs
    · rw [List.find?_cons_of_neg (by simpa using hsame),
        List.find?_cons_of_neg (by simpa [hname] using hsame)]
      exact ih

namespace SymbolTable.Fades

variable {table table' : SymbolTable}

theorem lookup? (h : table.Fades table') (name : String) :
    Option.Rel Symbol.Fades (table.lookup? name) (table'.lookup? name) := by
  unfold SymbolTable.lookup?
  unfold SymbolTable.Fades at h
  generalize table.scopes = scopes, table'.scopes = scopes' at h
  induction h with
  | nil => exact .none
  | @cons scope scope' _ _ hscope _ ih =>
    rw [List.findSome?_cons, List.findSome?_cons]
    have hfind := Scope.find?_fades hscope name
    revert hfind
    cases scope.find? name <;> cases scope'.find? name <;> intro hfind <;> cases hfind
    · exact ih
    · exact .some ‹_›

theorem typeOf (h : table.Fades table') (name : String) :
    table'.typeOf name = .undefined ∨ table'.typeOf name = table.typeOf name := by
  have hlookup := h.lookup? name
  unfold SymbolTable.typeOf
  revert hlookup
  cases table.lookup? name <;> cases table'.lookup? name <;> intro hlookup <;> cases hlookup
  · exact .inl rfl
  · rename_i hfades
    exact hfades.2

theorem undeclared (h : table.Fades table') (token : Token) :
    table'.undeclared token = table.undeclared token := by
  have hlookup := h.lookup? token.value
  unfold SymbolTable.undeclared
  revert hlookup
  cases table.lookup? token.value <;> cases table'.lookup? token.value <;> intro hlookup <;>
    cases hlookup
  · rfl
  · rfl

theorem typeIn (h : table.Fades table') (e : Expr) :
    e.typeIn table' = .undefined ∨ e.typeIn table' = e.typeIn table := by
  induction e with
  | value stamp token =>
    unfold Expr.typeIn
    by_cases hkind : token.kind = .identifier
    · rw [if_pos hkind, if_pos hkind]
      exact h.typeOf token.value
    · rw [if_neg hkind, if_neg hkind]
      exact .inr rfl
  | error => exact .inl rfl
  | unary _ _ _ ih | group _ _ ih => exact ih
  | binary _ _ _ _ ihleft _ => exact ihleft

theorem conflicts (h : table.Fades table') {expected expected' : ValueType}
    (hexpected : expected' = .undefined ∨ expected' = expected) (e : Expr) :
    e.conflicts table' expected' = [] ∨ e.conflicts table' expected' = e.conflicts table expected := by
  rcases hexpected with hnone | rfl
  · exact .inl (conflicts_of_undefined (.inl hnone))
  · rcases h.typeIn e with hnone | hsame
    · exact .inl (conflicts_of_undefined (.inr hnone))
    · right
      unfold Expr.conflicts
      rw [hsame]

/-- With fewer types known the same is found at a node, or nothing. -/
theorem diagnostics (h : table.Fades table') {n : Node} (hn : ∀ d, n ≠ .group d) :
    n.diagnostics table' = [] ∨ n.diagnostics table' = n.diagnostics table := by
  cases n with
  | group d => exact absurd rfl (hn d)
  | ident checked i =>
    cases checked with
    | true => exact .inr (h.undeclared i.token)
    | false => exact .inl rfl
  | part checked e =>
    cases checked with
    | false => exact .inl rfl
    | true =>
      cases e with
      | value stamp token =>
        simp only [Node.diagnostics, h.undeclared, or_true]
      | binary _ left _ right => exact h.conflicts (h.typeIn left) right
      | unary | group | error => exact .inl rfl
  | condition c => exact h.conflicts (h.typeIn c.left) c.right
  | statement st =>
    cases st with
    | assignment _ target value => exact h.conflicts (h.typeOf target.token.value) value
    | conditional _ _ _ otherwise => cases otherwise <;> exact .inl rfl
    | loop | input | output => exact .inl rfl

theorem sublist_findings (h : table.Fades table') {nodes : List Node} (hnodes : ∀ d, .group d ∉ nodes) :
    (nodes.flatMap (Node.findings table')).Sublist (nodes.flatMap (Node.findings table)) := by
  refine List.Sublist.flatMap_right nodes fun n hn => ?_
  have hgroup : ∀ d, n ≠ .group d := fun d heq => hnodes d (heq ▸ hn)
  unfold Node.findings
  rcases h.diagnostics hgroup with hnone | hsame
  · rw [hnone]
    exact List.nil_sublist _
  · rw [hsame]

end SymbolTable.Fades

/-! ## Declaring without a type -/

/-- Of a name that is refused it is left out which type stands. -/
def Diagnostic.untyped : Diagnostic → Diagnostic
  | alreadyDeclared token existing => alreadyDeclared token { existing with type := .undefined }
  | syntaxError n found => syntaxError n found
  | notDeclared token => notDeclared token
  | typeConflict token actual expected => typeConflict token actual expected

def Finding.untyped (f : Finding) : Finding := { f with diagnostic := f.diagnostic.untyped }

namespace Typing

/-- The second state has the same names with fewer types, and has found the same, types aside. -/
structure State.Fades (s s' : State) : Prop where
  table : s.table.Fades s'.table
  findings : s'.findings.map Finding.untyped = s.findings.map Finding.untyped

theorem fades_insert {table table' : SymbolTable} (h : table.Fades table') {symbol symbol' : Symbol}
    (hsymbol : symbol.Fades symbol') :
    (∃ u u', table.insert symbol = .added u ∧ table'.insert symbol' = .added u' ∧ u.Fades u') ∨
      (∃ holder holder', table.insert symbol = .taken holder ∧ table'.insert symbol' = .taken holder' ∧
        holder.Fades holder') ∨
      table.insert symbol = .unscoped ∧ table'.insert symbol' = .unscoped := by
  obtain ⟨scopes⟩ := table
  obtain ⟨scopes'⟩ := table'
  have hname : symbol'.name = symbol.name := congrArg Token.value hsymbol.1
  cases h with
  | nil => exact .inr (.inr ⟨rfl, rfl⟩)
  | @cons scope scope' outer outer' hscope houter =>
    have hfind := Scope.find?_fades hscope symbol.name
    unfold SymbolTable.insert
    simp only [hname]
    revert hfind
    cases scope.find? symbol.name <;> cases scope'.find? symbol.name <;> intro hfind <;> cases hfind
    · exact .inl ⟨_, _, rfl, rfl, .cons (.cons hsymbol hscope) houter⟩
    · exact .inr (.inl ⟨_, _, rfl, rfl, ‹_›⟩)

theorem State.Fades.declare {s s' : State} (h : s.Fades s') (token : Token) {type type' : ValueType}
    (htype : type' = .undefined ∨ type' = type) (seq : SeqNumber) :
    (s.declare token type seq).Fades (s'.declare token type' seq) := by
  unfold State.declare
  by_cases hkind : token.kind = .identifier
  · rw [if_pos hkind, if_pos hkind]
    have hsymbol : Symbol.Fades ⟨token, type⟩ ⟨token, type'⟩ := ⟨rfl, htype⟩
    rcases fades_insert h.table hsymbol with
      ⟨u, u', hadded, hadded', hfades⟩ | ⟨holder, holder', htaken, htaken', hfades⟩ | ⟨hnone, hnone'⟩
    · rw [hadded, hadded']
      exact ⟨hfades, h.findings⟩
    · rw [htaken, htaken']
      refine ⟨h.table, ?_⟩
      rw [State.findings_report, State.findings_report, List.map_append, List.map_append, h.findings]
      simp only [List.map_cons, List.map_nil, Finding.untyped, Diagnostic.untyped, hfades.1]
    · rw [hnone, hnone']
      refine ⟨h.table, ?_⟩
      rw [State.findings_note, State.findings_note, List.map_append, List.map_append, h.findings]
  · rw [if_neg hkind, if_neg hkind]
    exact h

theorem fades_declaration (d d' : Declaration) (hidents : d'.idents = d.idents)
    (htype : ValueType.ofDeclared d'.type = .undefined ∨
      ValueType.ofDeclared d'.type = .ofDeclared d.type)
    (hseq : d'.stamp.seq = d.stamp.seq) {s s' : State} (h : s.Fades s') :
    (declaration d s).Fades (declaration d' s') := by
  unfold declaration
  rw [hidents, hseq]
  induction d.idents generalizing s s' with
  | nil => exact h
  | cons i idents ih => exact ih (h.declare i.token htype _)

theorem fades_declarations (groups : List Declaration) {s s' : State} (h : s.Fades s') :
    (declarations groups s).Fades (declarations groups s') := by
  induction groups generalizing s s' with
  | nil => exact h
  | cons d groups ih => exact ih (fades_declaration d d rfl (.inr rfl) rfl h)

theorem State.Fades.refl (s : State) : s.Fades s where
  table := List.forall₂_same.mpr fun _ _ => List.forall₂_same.mpr fun s _ => .refl s
  findings := rfl

theorem fades_untyped (before after : List Declaration) (d : Declaration) (s : State) :
    (declarations (before ++ d :: after) s).Fades
      (declarations (before ++ { d with type := none } :: after) s) := by
  have hgroup : (declaration d (declarations before s)).Fades
      (declaration { d with type := none } (declarations before s)) :=
    fades_declaration d { d with type := none } rfl (.inl rfl) rfl (.refl _)
  unfold declarations
  rw [List.foldl_append, List.foldl_append]
  exact fades_declarations after hgroup

end Typing

end PalChecker
