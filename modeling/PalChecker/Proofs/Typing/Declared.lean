import PalChecker.Proofs.Typing.Declarators

/-!
# The names that a program declares

The table of a check is the list of declared names, and it gives each name the type of its first
declaration. Nothing is said of the declarations if no name is declared twice.
-/

namespace PalChecker

/-- The names of a group, each with the type of the group. -/
def Declaration.declared (d : Declaration) : List (String × Option DeclType) :=
  d.idents.map fun i => (i.token.value, d.type)

def Program.declared (p : Program) : List (String × Option DeclType) :=
  p.declarations.flatMap Declaration.declared

/-- Each name has the type of its first declaration. -/
def SymbolTable.Holds (table : SymbolTable) (declared : List (String × Option DeclType)) : Prop :=
  ∀ name, (table.lookup? name).map Symbol.type = (declared.lookup name).map ValueType.ofDeclared

namespace SymbolTable.Holds

variable {table : SymbolTable} {declared : List (String × Option DeclType)}

theorem lookup_eq_none_iff (h : table.Holds declared) {name : String} :
    table.lookup? name = none ↔ name ∉ declared.map Prod.fst := by
  rw [← Option.map_eq_none_iff (f := Symbol.type), h name, Option.map_eq_none_iff,
    List.lookup_eq_none_iff]
  constructor
  · intro hnone hmem
    obtain ⟨pair, hpair, rfl⟩ := List.mem_map.mp hmem
    exact absurd (hnone pair hpair) (by simp)
  · intro hnot pair hpair
    have : name ≠ pair.1 := by
      rintro rfl
      exact hnot (List.mem_map_of_mem hpair)
    simpa using this

theorem typeOf_of_lookup (h : table.Holds declared) {name : String} {type : Option DeclType}
    (hlookup : declared.lookup name = some type) : table.typeOf name = .ofDeclared type := by
  have htype := h name
  rw [hlookup] at htype
  obtain ⟨symbol, hsymbol, hsame⟩ := Option.map_eq_some_iff.mp htype
  rw [SymbolTable.typeOf, hsymbol]
  exact hsame

end SymbolTable.Holds

theorem lookup_of_mem {declared : List (String × Option DeclType)}
    (hnodup : (declared.map Prod.fst).Nodup) {name : String} {type : Option DeclType}
    (hmem : (name, type) ∈ declared) : declared.lookup name = some type := by
  induction declared with
  | nil => exact absurd hmem List.not_mem_nil
  | cons first rest ih =>
    obtain ⟨hfirst, hrest⟩ := List.nodup_cons.mp hnodup
    rcases List.mem_cons.mp hmem with rfl | hmem
    · exact List.lookup_cons_self
    · have : (name == first.1) = false := by
        refine beq_eq_false_iff_ne.mpr fun hname => hfirst ?_
        exact hname ▸ List.mem_map_of_mem (f := Prod.fst) hmem
      rw [List.lookup_cons, this]
      exact ih hrest hmem

/-! ## Declarators that are names -/

namespace Declarator

def entry (x : Declarator) : String × Option DeclType := (x.ident.token.value, x.type)

variable {earlier xs : List Declarator}

theorem lookup_entries (hnames : ∀ x ∈ xs, x.ident.IsName) (name : String) :
    (xs.map entry).lookup name = (first? name xs).map Declarator.type := by
  induction xs with
  | nil => rfl
  | cons x xs ih =>
    obtain ⟨hx, hnames'⟩ := List.forall_mem_cons.mp hnames
    unfold first? at ih ⊢
    rw [List.map_cons, List.lookup_cons, List.find?_cons]
    by_cases hname : x.ident.token.value = name
    · have hdeclares : x.Declares name := ⟨hx, hname⟩
      have hsame : (name == (entry x).1) = true := beq_iff_eq.mpr hname.symm
      rw [decide_eq_true hdeclares, hsame]
      rfl
    · have hdeclares : ¬x.Declares name := fun h => hname h.2
      have hother : (name == (entry x).1) = false := beq_eq_false_iff_ne.mpr (Ne.symm hname)
      rw [decide_eq_false hdeclares, hother]
      exact ih hnames'

theorem repeats_iff_mem (hnames : ∀ x ∈ earlier, x.ident.IsName) {x : Declarator} (hx : x.ident.IsName) :
    x.Repeats earlier ↔ (entry x).1 ∈ (earlier.map entry).map Prod.fst := by
  rw [List.map_map, List.mem_map]
  constructor
  · rintro ⟨-, y, hy, hdeclares⟩
    exact ⟨y, hy, hdeclares.2⟩
  · rintro ⟨y, hy, hsame⟩
    exact ⟨hx, y, hy, hnames y hy, hsame⟩

theorem select_repeats_eq_nil_iff (hnames : ∀ x ∈ earlier ++ xs, x.ident.IsName)
    (hnodup : ((earlier.map entry).map Prod.fst).Nodup) :
    select true earlier xs = [] ↔ (((earlier ++ xs).map entry).map Prod.fst).Nodup := by
  induction xs generalizing earlier with
  | nil => simpa [select] using hnodup
  | cons x xs ih =>
    have hearlier : ∀ y ∈ earlier, y.ident.IsName := fun y hy => hnames y (List.mem_append_left _ hy)
    have hx : x.ident.IsName := hnames x (List.mem_append_right _ List.mem_cons_self)
    have hrepeats := repeats_iff_mem hearlier hx
    by_cases h : x.Repeats earlier
    · rw [select_of_repeats h, List.map_append, List.map_append, List.nodup_append]
      refine iff_of_false (List.cons_ne_nil _ _) ?_
      rintro ⟨-, -, hapart⟩
      exact hapart _ (hrepeats.mp h) _ List.mem_cons_self rfl
    · rw [← List.singleton_append, ← List.append_assoc] at hnames ⊢
      rw [List.singleton_append, select_of_not_repeats h]
      refine ih hnames ?_
      rw [List.map_append, List.map_append, List.nodup_append]
      refine ⟨hnodup, List.pairwise_singleton _ _, ?_⟩
      rintro name hname _ hsame rfl
      cases List.mem_singleton.mp hsame
      exact h (hrepeats.mpr hname)

end Declarator

theorem SymbolTable.Knows.holds {table : SymbolTable} {xs : List Declarator} (h : table.Knows xs)
    (hnames : ∀ x ∈ xs, x.ident.IsName) : table.Holds (xs.map Declarator.entry) := by
  intro name
  rw [h.lookup, Declarator.lookup_entries hnames, Option.map_map, Option.map_map]
  rfl

theorem Program.declared_eq_entries (p : Program) : p.declared = p.declarators.map Declarator.entry := by
  unfold Program.declared Program.declarators
  rw [List.map_flatMap]
  refine congrArg (p.declarations.flatMap ·) (funext fun d => ?_)
  rw [Declaration.declarators, List.map_map]
  rfl

/-! ## Programs -/

namespace Typing

variable {p : Program}

theorem isName_of_mem_declarators (hnames : ∀ d ∈ p.declarations, ∀ i ∈ d.idents, i.IsName) :
    ∀ x ∈ p.declarators, x.ident.IsName := by
  intro x hx
  obtain ⟨d, hd, hx⟩ := List.mem_flatMap.mp hx
  obtain ⟨i, hi, rfl⟩ := List.mem_map.mp hx
  exact hnames d hd i hi

theorem holds_scope (hnames : ∀ d ∈ p.declarations, ∀ i ∈ d.idents, i.IsName) :
    p.scope.Holds p.declared := by
  rw [p.declared_eq_entries]
  exact (knows_scope p).holds (isName_of_mem_declarators hnames)

theorem silent_declarations_iff (hnames : ∀ d ∈ p.declarations, ∀ i ∈ d.idents, i.IsName) :
    (declarations p.declarations State.empty.openScope).findings = [] ↔
      (p.declared.map Prod.fst).Nodup := by
  rw [p.declared_eq_entries, ← List.length_eq_zero_iff, ← (refused_declarations p).length_eq,
    List.length_eq_zero_iff]
  have hnone : ((([] : List Declarator).map Declarator.entry).map Prod.fst).Nodup := List.nodup_nil
  exact Declarator.select_repeats_eq_nil_iff (isName_of_mem_declarators hnames) hnone

end Typing

end PalChecker
