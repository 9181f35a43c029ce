import Mathlib.Data.List.Forall2
import PalChecker.Proofs.Syntax.Canonical
import PalChecker.Proofs.Typing.Walk

/-!
# First declarations and later ones

All groups declare into one scope, in which the first declaration of a name stands. A later one is refused
and changes nothing.
-/

namespace PalChecker

instance (i : Ident) : Decidable i.IsName := inferInstanceAs (Decidable (_ = _))

/-- An ident of a group, with the number and the type of the group. -/
structure Declarator where
  seq : SeqNumber
  type : Option DeclType
  ident : Ident
  deriving DecidableEq, Repr

namespace Declarator

/-- An ident that is no name declares nothing. -/
def Declares (name : String) (x : Declarator) : Prop := x.ident.IsName ∧ x.ident.token.value = name

instance (name : String) (x : Declarator) : Decidable (x.Declares name) :=
  inferInstanceAs (Decidable (_ ∧ _))

def symbol (x : Declarator) : Symbol := ⟨x.ident.token, .ofDeclared x.type⟩

/-- Where `name` is declared first. -/
def first? (name : String) (xs : List Declarator) : Option Declarator := xs.find? (·.Declares name)

/-- Declares a name that one of the earlier ones declares. -/
def Repeats (earlier : List Declarator) (x : Declarator) : Prop :=
  x.ident.IsName ∧ ∃ y ∈ earlier, y.Declares x.ident.token.value

instance (earlier : List Declarator) (x : Declarator) : Decidable (x.Repeats earlier) :=
  inferInstanceAs (Decidable (_ ∧ _))

/-- Those that repeat a name, or those that do not, when some come earlier than all of them. -/
def select (repeating : Bool) (earlier : List Declarator) : List Declarator → List Declarator
  | [] => []
  | x :: rest =>
    if decide (x.Repeats earlier) = repeating then x :: select repeating (earlier ++ [x]) rest
    else select repeating (earlier ++ [x]) rest

end Declarator

def Declaration.declarators (d : Declaration) : List Declarator :=
  d.idents.map (⟨d.stamp.seq, d.type, ·⟩)

def Program.declarators (p : Program) : List Declarator := p.declarations.flatMap Declaration.declarators

/-! ## Those that repeat a name -/

namespace Declarator

theorem select_of_repeats {earlier xs : List Declarator} {x : Declarator} (hx : x.Repeats earlier)
    (repeating : Bool) :
    select repeating earlier (x :: xs) =
      (if repeating then [x] else []) ++ select repeating (earlier ++ [x]) xs := by
  rw [select, decide_eq_true hx]
  cases repeating <;> rfl

theorem select_of_not_repeats {earlier xs : List Declarator} {x : Declarator} (hx : ¬x.Repeats earlier)
    (repeating : Bool) :
    select repeating earlier (x :: xs) =
      (if repeating then [] else [x]) ++ select repeating (earlier ++ [x]) xs := by
  rw [select, decide_eq_false hx]
  cases repeating <;> rfl

theorem select_append (repeating : Bool) (earlier a b : List Declarator) :
    select repeating earlier (a ++ b) =
      select repeating earlier a ++ select repeating (earlier ++ a) b := by
  induction a generalizing earlier with
  | nil => rw [List.append_nil]; rfl
  | cons x a ih =>
    rw [List.cons_append, select, select, ih, List.append_assoc, List.singleton_append]
    split <;> rfl

theorem select_sublist (repeating : Bool) (earlier xs : List Declarator) :
    (select repeating earlier xs).Sublist xs := by
  induction xs generalizing earlier with
  | nil => exact List.Sublist.refl _
  | cons x xs ih =>
    rw [select]
    split
    · exact (ih _).cons_cons x
    · exact (ih _).cons x

end Declarator

/-! ## Finding the first declaration -/

theorem SymbolTable.insert_of_one_scope {table : SymbolTable} (h : ∃ scope, table.scopes = [scope])
    (symbol : Symbol) :
    (table.lookup? symbol.name = none ∧
      ∃ u, table.insert symbol = .added u ∧ ∃ scope, u.scopes = [scope]) ∨
    ∃ holder, table.lookup? symbol.name = some holder ∧ table.insert symbol = .taken holder := by
  obtain ⟨scope, hscope⟩ := h
  have hlookup : table.lookup? symbol.name = scope.find? symbol.name := by
    unfold SymbolTable.lookup?
    rw [hscope, List.findSome?_cons]
    cases scope.find? symbol.name <;> rfl
  rw [hlookup]
  unfold SymbolTable.insert
  rw [hscope]
  cases hfind : scope.find? symbol.name with
  | none =>
    refine Or.inl ⟨rfl, ⟨[symbol :: scope]⟩, ?_, _, rfl⟩
    simp only [hfind]
  | some holder =>
    refine Or.inr ⟨holder, rfl, ?_⟩
    simp only [hfind]

/-- One scope is open, in which each name stands as it was declared first. -/
structure SymbolTable.Knows (table : SymbolTable) (xs : List Declarator) : Prop where
  one_scope : ∃ scope, table.scopes = [scope]
  lookup : ∀ name, table.lookup? name = (Declarator.first? name xs).map Declarator.symbol

theorem Declarator.first?_concat (name : String) (xs : List Declarator) (x : Declarator) :
    first? name (xs ++ [x]) = (first? name xs).or (if x.Declares name then some x else none) := by
  unfold first?
  rw [List.find?_append, List.find?_singleton]
  simp only [decide_eq_true_eq]

theorem Declarator.repeats_iff {earlier : List Declarator} {x : Declarator} :
    x.Repeats earlier ↔ x.ident.IsName ∧ ∃ y, first? x.ident.token.value earlier = some y := by
  unfold Repeats first?
  rw [← Option.isSome_iff_exists, List.find?_isSome]
  simp only [decide_eq_true_eq]

namespace SymbolTable.Knows

variable {table : SymbolTable} {earlier : List Declarator}

theorem enter_empty : SymbolTable.empty.enter.Knows [] := ⟨⟨[], rfl⟩, fun _ => rfl⟩

theorem concat (h : table.Knows earlier) {x : Declarator}
    (hx : ∀ name, x.Declares name → ∃ y, Declarator.first? name earlier = some y) :
    table.Knows (earlier ++ [x]) where
  one_scope := h.one_scope
  lookup name := by
    rw [h.lookup, Declarator.first?_concat]
    by_cases hname : x.Declares name
    · -- The earlier declaration stands.
      obtain ⟨y, hy⟩ := hx name hname
      rw [hy, Option.some_or]
    · rw [if_neg hname, Option.or_none]

theorem added (h : table.Knows earlier) {x : Declarator} {table' : SymbolTable}
    (hx : x.ident.IsName) (hnew : table.lookup? x.ident.token.value = none)
    (hadded : table.insert x.symbol = .added table') (hscope : ∃ scope, table'.scopes = [scope]) :
    table'.Knows (earlier ++ [x]) where
  one_scope := hscope
  lookup name := by
    have hnone : Declarator.first? x.ident.token.value earlier = none := by
      rw [h.lookup] at hnew
      exact Option.map_eq_none_iff.mp hnew
    rw [lookup?_of_added hadded, Declarator.first?_concat]
    by_cases hname : x.ident.token.value = name
    · subst hname
      have hself : x.Declares x.ident.token.value := ⟨hx, rfl⟩
      rw [if_pos hself, hnone]
      simp [Symbol.name, Declarator.symbol]
    · have hother : ¬x.Declares name := fun h => hname h.2
      rw [if_neg hother, Option.or_none, h.lookup]
      simp [Symbol.name, Declarator.symbol, hname]

end SymbolTable.Knows

namespace Typing

open Declarator (first? select select_of_repeats select_of_not_repeats)

variable {table : SymbolTable} {earlier : List Declarator}

def declareOne (x : Declarator) (s : State) : State :=
  s.declare x.ident.token (.ofDeclared x.type) x.seq

def declareAll (xs : List Declarator) (s : State) : State := xs.foldl (fun s x => declareOne x s) s

theorem declarations_eq_declareAll (groups : List Declaration) (s : State) :
    declarations groups s = declareAll (groups.flatMap Declaration.declarators) s := by
  unfold declarations declareAll
  rw [List.foldl_flatMap]
  refine congrArg (fun f => groups.foldl f s) (funext fun s => funext fun d => ?_)
  unfold declaration Declaration.declarators
  rw [List.foldl_map]
  rfl

/-- Such a finding refuses a declarator, since its name is declared first elsewhere. -/
def Refuses (all : List Declarator) (x : Declarator) (f : Finding) : Prop :=
  ∃ first, first? x.ident.token.value all = some first ∧
    f = ⟨x.seq, .alreadyDeclared x.ident.token first.symbol⟩

theorem declareOne_of_isName {x : Declarator} (hx : x.ident.IsName) (s : State) :
    declareOne x s =
      match s.table.insert x.symbol with
      | .added table => { s with table }
      | .taken holder => s.report x.seq (.alreadyDeclared x.ident.token holder)
      | .unscoped => s.note (.unscoped x.ident.token.value) :=
  if_pos hx

/-- A declarator that repeats a name is refused. Any other is added, and nothing is said. -/
theorem declareOne_cases (h : table.Knows earlier) (x : Declarator) :
    (x.Repeats earlier ∧ table.Knows (earlier ++ [x]) ∧
      ∃ f, Refuses earlier x f ∧ ∀ s, s.table = table → declareOne x s = s.note (.found f)) ∨
    (¬x.Repeats earlier ∧ ∃ table', table'.Knows (earlier ++ [x]) ∧
      ∀ s, s.table = table → declareOne x s = { s with table := table' }) := by
  by_cases hname : x.ident.IsName
  case neg =>
    refine .inr ⟨fun hrepeats => hname hrepeats.1, table, h.concat fun _ hx => absurd hx.1 hname, ?_⟩
    rintro s rfl
    exact if_neg hname
  case pos =>
    rcases SymbolTable.insert_of_one_scope h.one_scope x.symbol with
      ⟨hnew, table', hadded, hscope⟩ | ⟨holder, hfound, htaken⟩
    · -- The scope was free of the name, so no earlier declarator bears it.
      refine .inr ⟨?_, table', h.added hname hnew hadded hscope, ?_⟩
      · rw [Declarator.repeats_iff]
        rintro ⟨-, y, hy⟩
        have hlookup := h.lookup x.symbol.name
        rw [hnew] at hlookup
        cases hlookup.trans (congrArg (Option.map Declarator.symbol) hy)
      · rintro s rfl
        rw [declareOne_of_isName hname, hadded]
    · rw [h.lookup] at hfound
      -- The holder is the first declarator of the name, and it keeps the entry.
      obtain ⟨first, hfirst, rfl⟩ := Option.map_eq_some_iff.mp hfound
      have hrepeats : x.Repeats earlier := Declarator.repeats_iff.mpr ⟨hname, first, hfirst⟩
      refine .inl ⟨hrepeats, h.concat ?_, _, ⟨first, hfirst, rfl⟩, ?_⟩
      · rintro name ⟨-, rfl⟩
        exact ⟨first, hfirst⟩
      · rintro s rfl
        rw [declareOne_of_isName hname, htaken]
        rfl

theorem Refuses.mono {all : List Declarator} (hall : earlier <+: all) {x : Declarator} {f : Finding}
    (h : Refuses earlier x f) : Refuses all x f := by
  obtain ⟨later, rfl⟩ := hall
  obtain ⟨first, hfirst, rfl⟩ := h
  refine ⟨first, ?_, rfl⟩
  unfold first? at hfirst ⊢
  rw [List.find?_append, hfirst, Option.some_or]

/-! ## Declaring many -/

section

variable {s t : State} {xs : List Declarator}

theorem knows_declareOne (h : s.table.Knows earlier) (x : Declarator) :
    (declareOne x s).table.Knows (earlier ++ [x]) := by
  rcases declareOne_cases h x with ⟨-, hknows, f, -, hrefused⟩ | ⟨-, table', hknows, hadded⟩
  · rw [hrefused s rfl]
    exact hknows
  · rw [hadded s rfl]
    exact hknows

theorem knows_declareAll (h : s.table.Knows earlier) : (declareAll xs s).table.Knows (earlier ++ xs) := by
  induction xs generalizing earlier s with
  | nil => rwa [List.append_nil]
  | cons x xs ih =>
    rw [← List.singleton_append, ← List.append_assoc]
    exact ih (knows_declareOne h x)

theorem refused_declareAll (h : s.table.Knows earlier) {all : List Declarator}
    (hall : earlier ++ xs <+: all) :
    ∃ refused, (declareAll xs s).findings = s.findings ++ refused ∧
      List.Forall₂ (Refuses all) (select true earlier xs) refused := by
  induction xs generalizing earlier s with
  | nil => exact ⟨[], (List.append_nil _).symm, .nil⟩
  | cons x xs ih =>
    have hlater : earlier ++ [x] ++ xs <+: all := by rwa [List.append_assoc]
    obtain ⟨refused, hfindings, hforall⟩ := ih (knows_declareOne h x) hlater
    rcases declareOne_cases h x with ⟨hrepeats, -, f, hf, hrefused⟩ | ⟨hnew, table', -, hadded⟩
    · have hone : (declareOne x s).findings = s.findings ++ [f] := by
        rw [hrefused s rfl, State.findings_note]
        rfl
      -- Refused, for the first of the name stands earlier.
      refine ⟨f :: refused, ?_, ?_⟩
      · rw [hone, List.append_assoc] at hfindings
        exact hfindings
      · rw [select_of_repeats hrepeats]
        exact .cons (hf.mono ((List.prefix_append _ _).trans hall)) hforall
    · have hone : (declareOne x s).findings = s.findings := by
        rw [hadded s rfl]
        rfl
      refine ⟨refused, ?_, ?_⟩
      · rw [hone] at hfindings
        exact hfindings
      · rw [select_of_not_repeats hnew]
        exact hforall

/-- Without those that repeat a name the same names are declared, and nothing is found. -/
theorem declareAll_select (h : s.table.Knows earlier) (ht : t.table = s.table) :
    (declareAll (select false earlier xs) t).table = (declareAll xs s).table ∧
      (declareAll (select false earlier xs) t).findings = t.findings := by
  induction xs generalizing earlier s t with
  | nil => exact ⟨ht, rfl⟩
  | cons x xs ih =>
    -- A refusal leaves the table as it is, so the run that skips the declarator keeps up.
    rcases declareOne_cases h x with ⟨hrepeats, -, f, -, hrefused⟩ | ⟨hnew, table', -, hadded⟩
    · have htable : t.table = (declareOne x s).table := by
        rw [hrefused s rfl]
        exact ht
      rw [select_of_repeats hrepeats]
      exact ih (knows_declareOne h x) htable
    · have htable : (declareOne x t).table = (declareOne x s).table := by rw [hadded t ht, hadded s rfl]
      have hfindings : (declareOne x t).findings = t.findings := by
        rw [hadded t ht]
        rfl
      obtain ⟨hsame, hnone⟩ := ih (knows_declareOne h x) htable
      rw [select_of_not_repeats hnew]
      exact ⟨hsame, hnone.trans hfindings⟩

end

end Typing

/-! ## Programs -/

/-- The names declared, with which all statements are checked. -/
def Program.scope (p : Program) : SymbolTable :=
  (Typing.declarations p.declarations Typing.State.empty.openScope).table

namespace Typing

open Declarator (select)

theorem check_eq_append (p : Program) :
    check p = (declarations p.declarations State.empty.openScope).findings ++
      (Statement.allNodes p.statements).flatMap (Node.findings p.scope) := by
  have h := (visits_statements p.statements (declarations p.declarations State.empty.openScope)).findings
  rwa [walk_of_no_group fun d => Statement.group_not_mem_allNodes d p.statements] at h

theorem knows_scope (p : Program) : p.scope.Knows p.declarators := by
  unfold Program.scope
  rw [declarations_eq_declareAll]
  exact knows_declareAll (s := State.empty.openScope) .enter_empty

theorem refused_declarations (p : Program) :
    List.Forall₂ (Refuses p.declarators) (select true [] p.declarators)
      (declarations p.declarations State.empty.openScope).findings := by
  have hall : [] ++ p.declarators <+: p.declarators := List.prefix_rfl
  obtain ⟨refused, hfindings, hforall⟩ :=
    refused_declareAll (s := State.empty.openScope) .enter_empty hall
  rw [declarations_eq_declareAll]
  exact hfindings ▸ hforall

end Typing

end PalChecker
