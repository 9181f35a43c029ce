import PalChecker.Analysis
import PalChecker.Proofs.Parser.Numbering
import PalChecker.Proofs.Typing.Walk

/-!
# The order of discovery

Errors and nodes share one numbering, and what is wrong at a node has its number. So the sort merges the
two stages into what a single pass would report that checks each node when it is complete.
-/

namespace PalChecker

/-! ## Two lists in one order -/

theorem mem_of_filter_eq {a b : List Finding} {p : Finding → Bool} (hwith : a.filter p = b.filter p)
    (hwithout : a.filter (!p ·) = b.filter (!p ·)) {f : Finding} (hf : f ∈ a) : f ∈ b := by
  cases hp : p f with
  | true =>
    have : f ∈ b.filter p := hwith ▸ List.mem_filter.mpr ⟨hf, hp⟩
    exact (List.mem_filter.mp this).1
  | false =>
    have : f ∈ b.filter (!p ·) := hwithout ▸ List.mem_filter.mpr ⟨hf, by simp [hp]⟩
    exact (List.mem_filter.mp this).1

/-- A list in order is determined by its parts with and without `p`, if they share no number. -/
theorem eq_of_filter_eq {a b : List Finding} {p : Finding → Bool}
    (ha : a.Pairwise (·.seq ≤ ·.seq)) (hb : b.Pairwise (·.seq ≤ ·.seq))
    (hwith : a.filter p = b.filter p) (hwithout : a.filter (!p ·) = b.filter (!p ·))
    (hshared : ∀ f ∈ a, ∀ g ∈ b, f.seq = g.seq → p f = p g) : a = b := by
  induction a generalizing b with
  | nil =>
    cases b with
    | nil => rfl
    | cons g b => exact absurd (mem_of_filter_eq hwith.symm hwithout.symm List.mem_cons_self) (by simp)
  | cons f a ih =>
    cases b with
    | nil => exact absurd (mem_of_filter_eq hwith hwithout List.mem_cons_self) (by simp)
    | cons g b =>
      obtain ⟨hfa, ha'⟩ := List.pairwise_cons.mp ha
      obtain ⟨hgb, hb'⟩ := List.pairwise_cons.mp hb
      -- The heads have one number, since each stands in the other list.
      have hle : g.seq ≤ f.seq := by
        rcases List.mem_cons.mp (mem_of_filter_eq hwith hwithout List.mem_cons_self) with rfl | hf
        · exact le_rfl
        · exact hgb f hf
      have hge : f.seq ≤ g.seq := by
        rcases List.mem_cons.mp (mem_of_filter_eq hwith.symm hwithout.symm List.mem_cons_self)
          with rfl | hg
        · exact le_rfl
        · exact hfa g hg
      have hp : p f = p g :=
        hshared f List.mem_cons_self g List.mem_cons_self (le_antisymm hge hle)
      have htails : f = g ∧ a.filter p = b.filter p ∧ a.filter (!p ·) = b.filter (!p ·) := by
        cases hg : p g <;> simp [hg, hp] at hwith hwithout <;> simp [hwith, hwithout]
      obtain ⟨rfl, hwith', hwithout'⟩ := htails
      have hshared' : ∀ x ∈ a, ∀ y ∈ b, x.seq = y.seq → p x = p y := fun x hx y hy =>
        hshared x (List.mem_cons_of_mem f hx) y (List.mem_cons_of_mem f hy)
      rw [ih ha' hb' hwith' hwithout' hshared']

theorem le_trans_seq (f g h : Finding) :
    decide (f.seq ≤ g.seq) → decide (g.seq ≤ h.seq) → decide (f.seq ≤ h.seq) := by
  simp only [decide_eq_true_eq]
  exact le_trans

theorem le_total_seq (f g : Finding) : decide (f.seq ≤ g.seq) || decide (g.seq ≤ f.seq) := by
  simp only [Bool.or_eq_true, decide_eq_true_eq]
  exact le_total _ _

theorem pairwise_ordered (a : List Finding) :
    (a.mergeSort fun f g => f.seq ≤ g.seq).Pairwise (·.seq ≤ ·.seq) := by
  have h := List.pairwise_mergeSort le_trans_seq le_total_seq a
  simpa only [decide_eq_true_eq] using h

theorem filter_ordered {a b : List Finding} {p : Finding → Bool} (ha : a.Pairwise (·.seq ≤ ·.seq))
    (hsub : a.Sublist b) (hp : b.filter p = a) :
    (b.mergeSort fun f g => f.seq ≤ g.seq).filter p = a := by
  have hle : a.Pairwise fun f g => decide (f.seq ≤ g.seq) := by
    simpa only [decide_eq_true_eq] using ha
  have hsorted := (List.sublist_mergeSort le_trans_seq le_total_seq hle hsub).filter p
  have hsame : a.filter p = a := by simp [← hp]
  have hlength : (a.filter p).length = ((b.mergeSort fun f g => f.seq ≤ g.seq).filter p).length := by
    rw [((List.mergeSort_perm b _).filter p).length_eq, hp, hsame]
  rw [← hsorted.eq_of_length hlength, hsame]

/-! ## What a node says -/

namespace Node

/-- Such a diagnostic is for this node to make, and it names what the node holds. -/
def Triggers : Node → Diagnostic → Prop
  | ident true i, .notDeclared token => i.token = token
  | part true (.value _ found), .notDeclared token => found = token
  | part true (.binary _ _ _ right), .typeConflict token _ _ => right.representative? = some token
  | condition c, .typeConflict token _ _ => c.right.representative? = some token
  | statement (.assignment _ _ value), .typeConflict token _ _ =>
    value.representative? = some token
  | group d, diagnostic => Typing.IsRedeclaration d.idents diagnostic
  | _, _ => False

end Node

theorem mem_undeclared {table : SymbolTable} {token : Token} {d : Diagnostic}
    (h : d ∈ table.undeclared token) : d = .notDeclared token := by
  unfold SymbolTable.undeclared at h
  split at h
  · exact List.mem_singleton.mp h
  · exact absurd h List.not_mem_nil

theorem mem_conflicts {table : SymbolTable} {expected : ValueType} {e : Expr} {d : Diagnostic}
    (h : d ∈ e.conflicts table expected) :
    ∃ token actual, e.representative? = some token ∧ d = .typeConflict token actual expected := by
  unfold Expr.conflicts at h
  split at h
  · exact absurd h List.not_mem_nil
  · rename_i token htoken
    split at h
    · exact ⟨token, _, htoken, List.mem_singleton.mp h⟩
    · exact absurd h List.not_mem_nil

theorem length_diagnostics_le {table : SymbolTable} {n : Node} (hn : ∀ d, n ≠ .group d) :
    (n.diagnostics table).length ≤ 1 := by
  have hundeclared (token : Token) : (table.undeclared token).length ≤ 1 := by
    unfold SymbolTable.undeclared
    split <;> simp
  have hconflicts (expected : ValueType) (e : Expr) : (e.conflicts table expected).length ≤ 1 := by
    unfold Expr.conflicts
    split
    · simp
    · split <;> simp
  unfold Node.diagnostics
  split
  · exact hundeclared _
  · split
    · exact hundeclared _
    · simp
  · exact hconflicts _ _
  · exact hconflicts _ _
  · exact hconflicts _ _
  · exact absurd rfl (hn _)
  · simp
  · simp
  · simp

theorem triggers_of_mem {table : SymbolTable} {n : Node} {d : Diagnostic}
    (h : d ∈ n.diagnostics table) : n.Triggers d := by
  unfold Node.diagnostics at h
  split at h
  · obtain rfl := mem_undeclared h
    rfl
  · split at h
    · obtain rfl := mem_undeclared h
      rfl
    · exact absurd h List.not_mem_nil
  · obtain ⟨token, actual, htoken, rfl⟩ := mem_conflicts h
    exact htoken
  · obtain ⟨token, actual, htoken, rfl⟩ := mem_conflicts h
    exact htoken
  · obtain ⟨token, actual, htoken, rfl⟩ := mem_conflicts h
    exact htoken
  · obtain ⟨f, hf, rfl⟩ := List.mem_map.mp h
    exact (Typing.redeclarations_of_declaration hf).2
  all_goals exact absurd h List.not_mem_nil

theorem not_isSyntaxError_of_triggers {n : Node} {d : Diagnostic} (h : n.Triggers d) :
    ¬d.IsSyntaxError := by
  intro hgrammar
  unfold Node.Triggers at h
  split at h
  · exact hgrammar
  · exact hgrammar
  · exact hgrammar
  · exact hgrammar
  · exact hgrammar
  · obtain ⟨i, -, holder, rfl⟩ := h
    exact hgrammar
  · exact h

theorem not_isSyntaxError_of_mem {table : SymbolTable} {n : Node} {f : Finding}
    (h : f ∈ n.findings table) : ¬f.diagnostic.IsSyntaxError := by
  obtain ⟨d, hd, rfl⟩ := List.mem_map.mp h
  exact not_isSyntaxError_of_triggers (triggers_of_mem hd)

/-! ## The walk in the order of numbers -/

theorem seq_of_mem_findings {table : SymbolTable} {n : Node} {f : Finding}
    (h : f ∈ n.findings table) : f.seq = n.seq := by
  obtain ⟨d, -, rfl⟩ := List.mem_map.mp h
  rfl

theorem exists_node_of_mem_walk {table : SymbolTable} {nodes : List Node} {f : Finding}
    (h : f ∈ walk table nodes) : ∃ n ∈ nodes, n.seq = f.seq ∧ n.Triggers f.diagnostic := by
  induction nodes generalizing table with
  | nil => exact absurd h List.not_mem_nil
  | cons n nodes ih =>
    rcases List.mem_append.mp h with hn | hnodes
    · obtain ⟨d, hd, rfl⟩ := List.mem_map.mp hn
      exact ⟨n, List.mem_cons_self, rfl, triggers_of_mem hd⟩
    · obtain ⟨m, hm, hfound⟩ := ih hnodes
      exact ⟨m, List.mem_cons_of_mem n hm, hfound⟩

/-- Some name of the group was already declared. -/
def Declaration.Refuses (d : Declaration) (f : Finding) : Prop :=
  f.seq = d.stamp.seq ∧ Typing.IsRedeclaration d.idents f.diagnostic

def ShareGroup (nodes : List Node) (f g : Finding) : Prop :=
  ∃ d : Declaration, .group d ∈ nodes ∧ d.Refuses f ∧ d.Refuses g

theorem refuses_of_mem {table : SymbolTable} {d : Declaration} {f : Finding}
    (h : f ∈ (Node.group d).findings table) : d.Refuses f := by
  obtain ⟨diagnostic, hdiagnostic, rfl⟩ := List.mem_map.mp h
  exact ⟨rfl, triggers_of_mem hdiagnostic⟩

theorem ShareGroup.mono {a b : List Node} {f g : Finding} (hab : ∀ n ∈ a, n ∈ b)
    (h : ShareGroup a f g) : ShareGroup b f g := by
  obtain ⟨d, hd, hshared⟩ := h
  exact ⟨d, hab _ hd, hshared⟩

theorem shareGroup_of_findings {table : SymbolTable} {n : Node} :
    (n.findings table).Pairwise (ShareGroup [n]) := by
  by_cases hn : ∃ d, n = .group d
  · obtain ⟨d, rfl⟩ := hn
    refine List.pairwise_of_forall_mem_list fun f hf g hg => ?_
    exact ⟨d, List.mem_cons_self, refuses_of_mem hf, refuses_of_mem hg⟩
  · have hle : (n.diagnostics table).length ≤ 1 := length_diagnostics_le fun d hd => hn ⟨d, hd⟩
    unfold Node.findings
    generalize n.diagnostics table = found at hle
    cases found with
    | nil => exact .nil
    | cons d rest =>
      have : rest = [] := List.eq_nil_of_length_eq_zero (by simp only [List.length_cons] at hle; omega)
      rw [this]
      exact List.pairwise_singleton _ _

theorem walk_in_order (table : SymbolTable) {nodes : List Node}
    (hnodes : nodes.Pairwise (·.seq < ·.seq)) :
    (walk table nodes).Pairwise fun f g => f.seq < g.seq ∨ f.seq = g.seq ∧ ShareGroup nodes f g := by
  induction nodes generalizing table with
  | nil => exact .nil
  | cons n nodes ih =>
    obtain ⟨hn, hnodes'⟩ := List.pairwise_cons.mp hnodes
    refine List.pairwise_append.mpr ⟨?_, ?_, ?_⟩
    · -- Findings of one node share its number, and only a group has several.
      refine shareGroup_of_findings.imp_of_mem fun {f g} hf hg hshared => Or.inr ⟨?_, ?_⟩
      · rw [seq_of_mem_findings hf, seq_of_mem_findings hg]
      · exact hshared.mono fun m hm => List.mem_singleton.mp hm ▸ List.mem_cons_self
    · refine (ih _ hnodes').imp fun {f g} h => h.imp_right fun ⟨hseq, hshared⟩ => ⟨hseq, ?_⟩
      exact hshared.mono fun m hm => List.mem_cons_of_mem n hm
    · -- A later node has a greater number.
      intro f hf g hg
      obtain ⟨m, hm, hseq, -⟩ := exists_node_of_mem_walk hg
      left
      rw [seq_of_mem_findings hf, ← hseq]
      exact hn m hm

theorem walk_sorted (table : SymbolTable) {nodes : List Node}
    (hnodes : nodes.Pairwise (·.seq < ·.seq)) : (walk table nodes).Pairwise (·.seq ≤ ·.seq) := by
  refine (walk_in_order table hnodes).imp fun {f g} h => ?_
  rcases h with hlt | ⟨heq, -⟩
  · exact le_of_lt hlt
  · exact le_of_eq heq

/-! ## One pass -/

open PalChecker.Parser (Discovery increasing_of_range errors_increase nodes_increase)

/-- Checks each node when it is complete, with errors reported in between. -/
def onePass : SymbolTable → List Discovery → List Finding
  | _, [] => []
  | table, .error f :: rest => f :: onePass table rest
  | table, .node n :: rest => n.findings table ++ onePass (n.declares table) rest

def Parser.Discovery.Yields : Discovery → Finding → Prop
  | .error e, f => e = f
  | .node n, f => n.seq = f.seq ∧ n.Triggers f.diagnostic

theorem Parser.Discovery.Yields.seq_eq {x : Discovery} {f : Finding} (h : x.Yields f) :
    x.seq = f.seq := by
  cases x with
  | error e => exact congrArg Finding.seq h
  | node n => exact h.1

variable {found : List Discovery}

theorem exists_of_mem_onePass {table : SymbolTable} {f : Finding} (h : f ∈ onePass table found) :
    ∃ x ∈ found, x.Yields f := by
  induction found generalizing table with
  | nil => exact absurd h List.not_mem_nil
  | cons x found ih =>
    cases x with
    | error e =>
      rcases List.mem_cons.mp h with rfl | h
      · exact ⟨.error f, List.mem_cons_self, rfl⟩
      · obtain ⟨y, hy, hyields⟩ := ih h
        exact ⟨y, List.mem_cons_of_mem _ hy, hyields⟩
    | node n =>
      rcases List.mem_append.mp h with hn | h
      · obtain ⟨d, hd, rfl⟩ := List.mem_map.mp hn
        exact ⟨.node n, List.mem_cons_self, rfl, triggers_of_mem hd⟩
      · obtain ⟨y, hy, hyields⟩ := ih h
        exact ⟨y, List.mem_cons_of_mem _ hy, hyields⟩

theorem onePass_in_order {table : SymbolTable} (hfound : found.Pairwise (·.seq < ·.seq)) :
    (onePass table found).Pairwise (·.seq ≤ ·.seq) := by
  induction found generalizing table with
  | nil => exact .nil
  | cons x found ih =>
    obtain ⟨hx, hfound'⟩ := List.pairwise_cons.mp hfound
    have hlater {table : SymbolTable} : ∀ g ∈ onePass table found, x.seq ≤ g.seq := by
      intro g hg
      obtain ⟨y, hy, hyields⟩ := exists_of_mem_onePass hg
      exact hyields.seq_eq ▸ le_of_lt (hx y hy)
    cases x with
    | error e => exact List.pairwise_cons.mpr ⟨hlater, ih hfound'⟩
    | node n =>
      refine List.pairwise_append.mpr ⟨?_, ih hfound', fun f hf g hg => ?_⟩
      · refine List.pairwise_of_forall_mem_list fun f hf g hg => le_of_eq ?_
        rw [seq_of_mem_findings hf, seq_of_mem_findings hg]
      · exact seq_of_mem_findings hf ▸ hlater g hg

theorem filter_onePass_errors (table : SymbolTable)
    (hfound : ∀ f ∈ found.filterMap Discovery.error?, f.diagnostic.IsSyntaxError) :
    (onePass table found).filter (·.diagnostic.IsSyntaxError) = found.filterMap Discovery.error? := by
  induction found generalizing table with
  | nil => rfl
  | cons x found ih =>
    cases x with
    | error e =>
      obtain ⟨he, hfound'⟩ := List.forall_mem_cons.mp hfound
      rw [onePass, List.filter_cons_of_pos (by simp [he]), ih table hfound']
      rfl
    | node n =>
      have hnone : (n.findings table).filter (·.diagnostic.IsSyntaxError) = [] :=
        List.filter_eq_nil_iff.mpr fun f hf => by simp [not_isSyntaxError_of_mem hf]
      rw [onePass, List.filter_append, hnone, List.nil_append, ih _ hfound]
      rfl

theorem filter_onePass_walk (table : SymbolTable)
    (hfound : ∀ f ∈ found.filterMap Discovery.error?, f.diagnostic.IsSyntaxError) :
    (onePass table found).filter (!·.diagnostic.IsSyntaxError) =
      walk table (found.filterMap Discovery.node?) := by
  induction found generalizing table with
  | nil => rfl
  | cons x found ih =>
    cases x with
    | error e =>
      obtain ⟨he, hfound'⟩ := List.forall_mem_cons.mp hfound
      rw [onePass, List.filter_cons_of_neg (by simp [he]), ih table hfound']
      rfl
    | node n =>
      have hall : (n.findings table).filter (!·.diagnostic.IsSyntaxError) = n.findings table :=
        List.filter_eq_self.mpr fun f hf => by simp [not_isSyntaxError_of_mem hf]
      rw [onePass, List.filter_append, hall, ih _ hfound]
      rfl

/-! ## The two stages of an analysis -/

theorem eq_of_seq_eq (hfound : found.Pairwise (·.seq < ·.seq)) {x y : Discovery} (hx : x ∈ found)
    (hy : y ∈ found) (hseq : x.seq = y.seq) : x = y := by
  refine List.Pairwise.forall_of_forall_of_flip (R := fun x y => x.seq = y.seq → x = y)
    (fun x _ _ => rfl) (hfound.imp ?_) (hfound.imp ?_) hx hy hseq
  · exact fun hlt heq => absurd heq (ne_of_lt hlt)
  · exact fun hlt heq => absurd heq.symm (ne_of_lt hlt)

theorem exists_of_mem_errors {f : Finding} (h : f ∈ found.filterMap Discovery.error?) :
    .error f ∈ found := by
  obtain ⟨x, hx, herror⟩ := List.mem_filterMap.mp h
  cases x with
  | error e => exact Option.some.inj herror ▸ hx
  | node n => cases herror

theorem exists_of_mem_nodes {n : Node} (h : n ∈ found.filterMap Discovery.node?) : .node n ∈ found := by
  obtain ⟨x, hx, hnode⟩ := List.mem_filterMap.mp h
  cases x with
  | error e => cases hnode
  | node m => exact Option.some.inj hnode ▸ hx

/-- Two stages that make one order of discovery: `errors` of a parse, and `findings` of a check of the
`nodes` it gave. -/
structure InDiscoveryOrder (errors findings : List Finding) (nodes : List Node)
    (merged : List Diagnostic) : Prop where
  errors_increase : errors.Pairwise (·.seq < ·.seq)
  findings_in_order : findings.Pairwise (·.seq ≤ ·.seq)
  apart : ∀ f ∈ errors, ∀ g ∈ findings, f.seq ≠ g.seq
  shared : findings.Pairwise fun f g => f.seq = g.seq → ShareGroup nodes f g
  errors_kept : merged.filter (·.IsSyntaxError) = errors.map Finding.diagnostic
  findings_kept : merged.filter (!·.IsSyntaxError) = findings.map Finding.diagnostic
  one_pass : ∃ found : List Discovery,
    found.map Discovery.seq = (List.range found.length).map .ofNat ∧
      found.filterMap Discovery.error? = errors ∧ found.filterMap Discovery.node? = nodes ∧
        merged = (onePass SymbolTable.empty.enter found).map Finding.diagnostic

theorem exists_of_mem_walk {table : SymbolTable} {f : Finding}
    (h : f ∈ walk table (found.filterMap Discovery.node?)) : ∃ x ∈ found, x.Yields f := by
  obtain ⟨n, hn, hseq, htriggers⟩ := exists_node_of_mem_walk h
  exact ⟨.node n, exists_of_mem_nodes hn, hseq, htriggers⟩

/-- A sort by number makes of both stages what one pass reports. -/
theorem ordered_eq_onePass (hfound : found.Pairwise (·.seq < ·.seq))
    (hgrammar : ∀ f ∈ found.filterMap Discovery.error?, f.diagnostic.IsSyntaxError)
    (table : SymbolTable) :
    (found.filterMap Discovery.error? ++ walk table (found.filterMap Discovery.node?)).mergeSort
      (fun f g => f.seq ≤ g.seq) = onePass table found := by
  have hwalk : ∀ f ∈ walk table (found.filterMap Discovery.node?), ¬f.diagnostic.IsSyntaxError := by
    intro f hf
    obtain ⟨n, -, -, htriggers⟩ := exists_node_of_mem_walk hf
    exact not_isSyntaxError_of_triggers htriggers
  have herrors := (errors_increase hfound).imp fun {f g} => le_of_lt
  have hwalked := walk_sorted table (nodes_increase hfound)
  refine eq_of_filter_eq (p := fun f => f.diagnostic.IsSyntaxError) (pairwise_ordered _)
    (onePass_in_order hfound) ?_ ?_ ?_
  · rw [filter_onePass_errors table hgrammar]
    refine filter_ordered herrors (List.sublist_append_left _ _) ?_
    rw [List.filter_append, List.filter_eq_self.mpr fun f hf => by simp [hgrammar f hf],
      List.filter_eq_nil_iff.mpr fun f hf => by simp [hwalk f hf], List.append_nil]
  · rw [filter_onePass_walk table hgrammar]
    refine filter_ordered hwalked (List.sublist_append_right _ _) ?_
    rw [List.filter_append, List.filter_eq_nil_iff.mpr fun f hf => by simp [hgrammar f hf],
      List.filter_eq_self.mpr fun f hf => by simp [hwalk f hf], List.nil_append]
  · intro f hf g hg hseq
    have hyields : ∃ x ∈ found, x.Yields f := by
      rcases List.mem_append.mp (List.mem_mergeSort.mp hf) with hf | hf
      · exact ⟨.error f, exists_of_mem_errors hf, rfl⟩
      · exact exists_of_mem_walk hf
    obtain ⟨x, hx, hxf⟩ := hyields
    obtain ⟨y, hy, hyg⟩ := exists_of_mem_onePass hg
    -- Both come of one discovery, which is an error or a node.
    obtain rfl : x = y := eq_of_seq_eq hfound hx hy (by rw [hxf.seq_eq, hyg.seq_eq, hseq])
    cases x with
    | error e =>
      have hsame : f = g := hxf.symm.trans hyg
      rw [hsame]
    | node n =>
      simp [not_isSyntaxError_of_triggers hxf.2, not_isSyntaxError_of_triggers hyg.2]

theorem inDiscoveryOrder_of_range (hrange : found.map Discovery.seq = (List.range found.length).map .ofNat)
    (hlength : found.length ≤ UInt32.size)
    (hgrammar : ∀ f ∈ found.filterMap Discovery.error?, f.diagnostic.IsSyntaxError) :
    InDiscoveryOrder (found.filterMap Discovery.error?)
      (walk SymbolTable.empty.enter (found.filterMap Discovery.node?))
      (found.filterMap Discovery.node?)
      ((onePass SymbolTable.empty.enter found).map Finding.diagnostic) := by
  have hfound := increasing_of_range hrange hlength
  have hnodes := nodes_increase hfound
  constructor
  case errors_increase => exact errors_increase hfound
  case findings_in_order => exact walk_sorted _ hnodes
  case apart =>
    -- The number would be that of an error and of a node.
    intro f hf g hg hseq
    obtain ⟨n, hn, hnode, -⟩ := exists_node_of_mem_walk hg
    have : Discovery.error f = .node n := eq_of_seq_eq hfound (exists_of_mem_errors hf)
      (exists_of_mem_nodes hn) (hseq.trans hnode.symm)
    cases this
  case shared =>
    refine (walk_in_order _ hnodes).imp fun {f g} h hseq => ?_
    rcases h with hlt | ⟨-, hshared⟩
    · exact absurd hseq (ne_of_lt hlt)
    · exact hshared
  case errors_kept =>
    rw [List.filter_map]
    exact congrArg (List.map Finding.diagnostic) (filter_onePass_errors _ hgrammar)
  case findings_kept =>
    rw [List.filter_map]
    exact congrArg (List.map Finding.diagnostic) (filter_onePass_walk _ hgrammar)
  case one_pass => exact ⟨found, hrange, rfl, rfl, rfl⟩

theorem isSyntaxError_of_mem_errors {outcome : Parser.Outcome} {f : Finding}
    (h : f ∈ outcome.errors) : f.diagnostic.IsSyntaxError := by
  obtain ⟨a, -, ha⟩ := List.mem_filterMap.mp h
  cases a with
  | reported seq n token =>
    cases ha
    trivial
  | consumed | discarded | skipped | suppressed => cases ha

end PalChecker
