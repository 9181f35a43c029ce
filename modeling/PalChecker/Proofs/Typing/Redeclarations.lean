import PalChecker.Proofs.Suppression
import PalChecker.Proofs.Typing.Declarators

/-!
# Redeclarations

A declaration that is refused changes nothing, so that without it the same is found everywhere else.
-/

namespace PalChecker

/-! ## Kinds of findings -/

inductive Fault where
  | grammar | redeclaration | undeclared | conflict
  deriving DecidableEq, Repr

def Diagnostic.fault : Diagnostic → Fault
  | syntaxError .. => .grammar
  | alreadyDeclared .. => .redeclaration
  | notDeclared .. => .undeclared
  | typeConflict .. => .conflict

/-- The findings of one kind, in their order. -/
def Fault.among (fault : Fault) (found : List Finding) : List Finding :=
  found.filter (·.diagnostic.fault = fault)

theorem Fault.among_append (fault : Fault) (a b : List Finding) :
    fault.among (a ++ b) = fault.among a ++ fault.among b := List.filter_append a b

theorem Fault.among_of_forall (fault : Fault) {found : List Finding} {only : Fault}
    (h : ∀ f ∈ found, f.diagnostic.fault = only) :
    fault.among found = if fault = only then found else [] := by
  unfold Fault.among
  split
  · rename_i hfault
    exact List.filter_eq_self.mpr fun f hf => decide_eq_true ((h f hf).trans hfault.symm)
  · rename_i hfault
    exact List.filter_eq_nil_iff.mpr fun f hf => by simpa [h f hf] using Ne.symm hfault

theorem Node.among_findings {table : SymbolTable} (n : Node) (fault : Fault) {only : Fault}
    (h : ∀ d ∈ n.diagnostics table, d.fault = only) :
    fault.among (n.findings table) = if fault = only then n.findings table else [] :=
  fault.among_of_forall (List.forall_mem_map.mpr h)

/-! ## What is left without repeats -/

/-- The groups without the idents that repeat a name. -/
def Declaration.withoutRepeats (earlier : List Declarator) : List Declaration → List Declaration
  | [] => []
  | d :: rest =>
    { d with idents := (Declarator.select false earlier d.declarators).map Declarator.ident } ::
      withoutRepeats (earlier ++ d.declarators) rest

def Program.withoutRepeats (p : Program) : Program :=
  { p with declarations := Declaration.withoutRepeats [] p.declarations }

theorem Declaration.declarators_of_mem {d : Declaration} {x : Declarator} (hx : x ∈ d.declarators) :
    (⟨d.stamp.seq, d.type, x.ident⟩ : Declarator) = x := by
  obtain ⟨i, -, rfl⟩ := List.mem_map.mp hx
  rfl

theorem Declaration.declarators_select (d : Declaration) {xs : List Declarator}
    (h : xs.Sublist d.declarators) :
    ({ d with idents := xs.map Declarator.ident } : Declaration).declarators = xs := by
  unfold declarators
  rw [List.map_map]
  refine (List.map_congr_left fun x hx => ?_).trans (List.map_id xs)
  exact declarators_of_mem (d := d) (h.subset hx)

theorem Declaration.declarators_withoutRepeats (earlier : List Declarator) (groups : List Declaration) :
    (withoutRepeats earlier groups).flatMap declarators =
      Declarator.select false earlier (groups.flatMap declarators) := by
  induction groups generalizing earlier with
  | nil => rfl
  | cons d groups ih =>
    rw [withoutRepeats, List.flatMap_cons, List.flatMap_cons, Declarator.select_append, ih,
      d.declarators_select (Declarator.select_sublist _ _ _)]

/-! ## Programs -/

namespace Typing

open Declarator (select)

theorem fault_of_refused {all xs : List Declarator} {refused : List Finding}
    (h : List.Forall₂ (Refuses all) xs refused) : ∀ f ∈ refused, f.diagnostic.fault = .redeclaration := by
  induction h with
  | nil => exact fun _ hf => absurd hf List.not_mem_nil
  | cons hf _ ih =>
    obtain ⟨first, -, rfl⟩ := hf
    exact List.forall_mem_cons.mpr ⟨rfl, ih⟩

theorem fault_of_mem_statements {table : SymbolTable} {body : List Statement} {f : Finding}
    (hf : f ∈ (Statement.allNodes body).flatMap (Node.findings table)) :
    f.diagnostic.fault ≠ .redeclaration := by
  obtain ⟨n, hn, hf⟩ := List.mem_flatMap.mp hf
  obtain ⟨d, hd, rfl⟩ := List.mem_map.mp hf
  have htriggers := triggers_of_mem hd
  cases d with
  | syntaxError | notDeclared | typeConflict => exact nofun
  | alreadyDeclared token existing =>
    -- Only a group declares names.
    refine absurd htriggers ?_
    cases n with
    | group d => exact absurd hn (Statement.group_not_mem_allNodes d body)
    | ident checked _ => cases checked <;> exact not_false
    | part checked e => cases checked <;> cases e <;> exact not_false
    | condition => exact not_false
    | statement st => cases st <;> exact not_false

theorem among_redeclaration_check (p : Program) :
    Fault.redeclaration.among (check p) = (declarations p.declarations State.empty.openScope).findings := by
  have hstatements : Fault.redeclaration.among
      ((Statement.allNodes p.statements).flatMap (Node.findings p.scope)) = [] :=
    List.filter_eq_nil_iff.mpr fun f hf => by simpa using fault_of_mem_statements hf
  rw [check_eq_append, Fault.among_append, hstatements, List.append_nil,
    Fault.among_of_forall _ (fault_of_refused (refused_declarations p)), if_pos rfl]

theorem filter_check_of_use (p : Program) (kinds : Fault → Bool) (h : kinds .redeclaration = false) :
    (check p).filter (fun f => kinds f.diagnostic.fault) =
      ((Statement.allNodes p.statements).flatMap (Node.findings p.scope)).filter
        fun f => kinds f.diagnostic.fault := by
  rw [check_eq_append, List.filter_append, List.filter_eq_nil_iff.mpr, List.nil_append]
  intro f hf
  rw [fault_of_refused (refused_declarations p) f hf, h]
  exact Bool.false_ne_true

theorem check_withoutRepeats (p : Program) :
    check p.withoutRepeats = (Statement.allNodes p.statements).flatMap (Node.findings p.scope) := by
  have hgroups : declarations p.withoutRepeats.declarations State.empty.openScope =
      declareAll (select false [] p.declarators) State.empty.openScope := by
    rw [declarations_eq_declareAll, Program.withoutRepeats, Declaration.declarators_withoutRepeats]
    rfl
  obtain ⟨htable, hfindings⟩ :
      (declareAll (select false [] p.declarators) State.empty.openScope).table =
          (declareAll p.declarators State.empty.openScope).table ∧
        (declareAll (select false [] p.declarators) State.empty.openScope).findings = [] :=
    declareAll_select .enter_empty rfl
  -- The declarators that are left out changed nothing, so the table is the same.
  have hscope : p.withoutRepeats.scope = p.scope := by
    unfold Program.scope
    rw [hgroups, htable, declarations_eq_declareAll]
    rfl
  rw [check_eq_append, hgroups, hfindings, hscope]
  rfl

/-- Each declarator that repeats a name is refused, since the first one of that name stands, and no other
is. Without them everything else is found as before. -/
theorem repeats_are_refused_and_change_nothing (p : Program) :
    List.Forall₂ (Refuses p.declarators) (select true [] p.declarators)
        (Fault.redeclaration.among (check p)) ∧
      check p.withoutRepeats = (check p).filter (·.diagnostic.fault ≠ .redeclaration) := by
  constructor
  · rw [among_redeclaration_check]
    exact refused_declarations p
  · have hfilter := filter_check_of_use p (fun fault => fault ≠ .redeclaration) rfl
    rw [check_withoutRepeats, hfilter]
    refine (List.filter_eq_self.mpr fun f hf => ?_).symm
    simpa using fault_of_mem_statements hf

end Typing

end PalChecker
