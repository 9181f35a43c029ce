import PalChecker.Proofs.Discovery
import PalChecker.Proofs.Parser.Progress
import PalChecker.Proofs.Typing.Sides

/-!
# Nothing is suppressed without a cause

What is not known conflicts with nothing, so that one mistake is not reported twice. But what is not known
has been reported: an operand and a type that could not be read are behind an error, and a name that is
not declared is reported where it is used.
-/

namespace PalChecker.Parser

/-! ## Behind an error -/

/-- An error that is recovered from has a number that was already handed out. -/
def State.Caused (s : State) : Prop := s.recovering = true → ∃ f ∈ s.errors, f.seq.toNat < s.issued

namespace State

variable {s t : State}

theorem Move.precedes (h : s.Move t) : s.Precedes t := by
  cases h with
  | consume => exact (Precedes.refl s).bump
  | fail n => exact (Precedes.refl s).fail n
  | discard => exact (Precedes.refl s).discard
  | skip n extra => exact (Precedes.refl s).synchronize n extra

theorem Caused.tick (h : s.Caused) : s.tick.Caused := by
  intro hs
  obtain ⟨f, hf, hlt⟩ := h hs
  exact ⟨f, hf, Nat.lt_succ_of_lt hlt⟩

theorem Caused.move (h : s.Caused) (hmove : s.Move t) : t.Caused := by
  unfold Caused at h ⊢
  cases hmove with
  | consume => exact nofun
  | fail n =>
    intro _
    cases hs : s.recovering with
    | true =>
      rw [errors_fail_of_recovering n hs, issued_fail_of_recovering n hs]
      exact h hs
    | false =>
      rw [errors_fail_of_not_recovering n hs, issued_fail_of_not_recovering n hs]
      -- The error that is reported is the cause.
      exact ⟨_, List.mem_append_right _ List.mem_cons_self, Nat.lt_succ_of_le (SeqNumber.toNat_ofNat_le _)⟩
  | discard =>
    rw [errors_discard]
    exact h
  | skip n extra =>
    rw [errors_synchronize]
    exact h

end State

theorem Builds.precedes {s t : State} {nodes : List Node} (h : Builds s nodes t) : s.Precedes t :=
  h.invariant (fun h hmove => h.trans hmove.precedes) (fun h => h.tick) (State.Precedes.refl s)

theorem Builds.exists_completed {s t : State} {nodes : List Node} (h : Builds s nodes t)
    (hs : s.Caused) :
    ∀ n ∈ nodes, ∃ u : State, u.Completes n ∧ n.seq = u.nextSeq ∧ u.Caused ∧ u.Precedes t ∧
      u.issued ≤ t.issued := by
  intro n hn
  obtain ⟨before, after, u, -, hbefore, hcompletes, hseq, hafter⟩ := h.exists_split hn
  have hcaused : u.Caused := hbefore.invariant (fun h hmove => h.move hmove) (fun h => h.tick) hs
  exact ⟨u, hcompletes, hseq, hcaused, hafter.precedes, hafter.numbers.issued_le⟩

section

variable {tokens : List Token}

theorem exists_completed_of_mem {n : Node} (h : n ∈ (parse tokens).program.nodes) :
    ∃ u : State, u.Completes n ∧ n.seq = u.nextSeq ∧ u.Caused ∧ u.Precedes (parse tokens).final ∧
      u.issued ≤ (parse tokens).final.issued :=
  (builds_parse tokens).exists_completed (fun h => by cases h) n h

/-- A node that is only completed while an error is recovered from comes behind that error. -/
theorem exists_error_before {n : Node} (h : n ∈ (parse tokens).program.nodes)
    (hn : ∀ u : State, u.Completes n → u.recovering = true) :
    ∃ f ∈ (parse tokens).errors, ¬(parse tokens).Overflows → f.seq < n.seq := by
  obtain ⟨u, hcompletes, hseq, hcaused, hlater, hissued⟩ := exists_completed_of_mem h
  obtain ⟨f, hf, hlt⟩ := hcaused (hn u hcompletes)
  refine ⟨f, hlater.errors.subset hf, fun hfew => ?_⟩
  have hvalue : u.nextSeq.toNat = u.issued :=
    SeqNumber.toNat_ofNat_of_lt (Nat.lt_of_le_of_lt hissued (Nat.lt_of_not_le hfew))
  rwa [hseq, SeqNumber.lt_iff_toNat_lt, hvalue]

end

end PalChecker.Parser

namespace PalChecker

/-! ## The names of a program -/

theorem check_eq_findings (p : Program) :
    Typing.check p =
      walk SymbolTable.empty.enter (p.declarations.flatMap Declaration.nodes) ++
        (Statement.allNodes p.statements).flatMap (Node.findings p.scope) := by
  have hscope := (Typing.visits_declarations p.declarations Typing.State.empty.openScope).table
  rw [Typing.check_eq_walk, Program.nodes, walk_append,
    ← walk_of_no_group fun d => Statement.group_not_mem_allNodes d p.statements, Program.scope, hscope]
  rfl

theorem sides?_of_mem_declarations {p : Program} {n : Node}
    (h : n ∈ p.declarations.flatMap Declaration.nodes) : n.sides? = none := by
  obtain ⟨d, -, hn⟩ := List.mem_flatMap.mp h
  rcases List.mem_append.mp hn with hn | hn
  · obtain ⟨i, -, rfl⟩ := List.mem_map.mp hn
    rfl
  · obtain rfl := List.mem_singleton.mp hn
    rfl

theorem group_mem_nodes {p : Program} {d : Declaration} (h : d ∈ p.declarations) :
    .group d ∈ p.declarations.flatMap Declaration.nodes :=
  List.mem_flatMap.mpr ⟨d, h, List.mem_append_right _ List.mem_cons_self⟩

theorem exists_untyped_group {p : Program} {name : String} (h : p.declared.lookup name = some none) :
    ∃ d ∈ p.declarations, d.type = none := by
  obtain ⟨earlier, later, hsplit, -⟩ := List.lookup_eq_some_iff.mp h
  have hmem : (name, none) ∈ p.declared := by
    rw [hsplit]
    exact List.mem_append_right _ List.mem_cons_self
  obtain ⟨d, hd, hname⟩ := List.mem_flatMap.mp hmem
  obtain ⟨i, -, hsame⟩ := List.mem_map.mp hname
  exact ⟨d, hd, congrArg Prod.snd hsame⟩

/-! ## The order of an analysis -/

/-- Everything that both stages found, in the order of discovery. -/
def Analysis.findings (tokens : List Token) : List Finding :=
  ((Parser.parse tokens).errors ++ Typing.check (Parser.parse tokens).program).mergeSort
    fun f g => f.seq ≤ g.seq

namespace Analysis

theorem diagnostics_eq_map_findings (tokens : List Token) :
    diagnostics tokens = (findings tokens).map Finding.diagnostic := rfl

theorem mem_findings {tokens : List Token} {f : Finding} :
    f ∈ findings tokens ↔
      f ∈ (Parser.parse tokens).errors ∨ f ∈ Typing.check (Parser.parse tokens).program :=
  List.mem_mergeSort.trans List.mem_append

theorem findings_in_order (tokens : List Token) : (findings tokens).Pairwise (·.seq ≤ ·.seq) :=
  pairwise_ordered _

end Analysis

theorem exists_place {found : List Finding} (h : found.Pairwise (·.seq ≤ ·.seq)) {seq : SeqNumber}
    (hseq : ∀ f ∈ found, f.seq ≠ seq) :
    ∃ before after, found = before ++ after ∧ (∀ f ∈ before, f.seq < seq) ∧
      ∀ f ∈ after, seq < f.seq := by
  induction found with
  | nil =>
    exact ⟨[], [], rfl, fun _ hf => absurd hf List.not_mem_nil, fun _ hf => absurd hf List.not_mem_nil⟩
  | cons first rest ih =>
    obtain ⟨hfirst, hrest⟩ := List.pairwise_cons.mp h
    obtain ⟨hne, hseq'⟩ := List.forall_mem_cons.mp hseq
    by_cases hlt : first.seq < seq
    · obtain ⟨before, after, rfl, hbefore, hafter⟩ := ih hrest hseq'
      exact ⟨first :: before, after, rfl, List.forall_mem_cons.mpr ⟨hlt, hbefore⟩, hafter⟩
    · -- All that follow have numbers that are no smaller.
      have hgt : seq < first.seq := lt_of_le_of_ne (not_lt.mp hlt) hne.symm
      refine ⟨[], first :: rest, rfl, fun _ hf => absurd hf List.not_mem_nil, ?_⟩
      exact List.forall_mem_cons.mpr ⟨hgt, fun f hf => lt_of_lt_of_le hgt (hfirst f hf)⟩

/-- Such a finding says why nothing is said about a side. -/
inductive Side.AccountedBy (p : Program) (side : Side) : Finding → Prop where
  | undeclared {seq : SeqNumber} {token : Token} (htoken : side.token? = some token) :
      AccountedBy p side ⟨seq, .notDeclared token⟩
  | unread {f : Finding} (herror : f.diagnostic.IsSyntaxError) (hnone : side.token? = none) :
      AccountedBy p side f
  /-- The group that declares the name first has no type. -/
  | untyped {f : Finding} {token : Token} (herror : f.diagnostic.IsSyntaxError)
      (htoken : side.token? = some token) (hfirst : p.declared.lookup token.value = some none) :
      AccountedBy p side f

section

variable {tokens : List Token}

theorem holds_scope_parse (tokens : List Token) :
    (Parser.parse tokens).program.scope.Holds (Parser.parse tokens).program.declared := by
  have hnames : ∀ d ∈ (Parser.parse tokens).program.declarations, ∀ i ∈ d.idents, i.IsName := by
    intro d hd i hi
    have hmem : .ident false i ∈ (Parser.parse tokens).program.nodes :=
      List.mem_append_left _ (List.mem_flatMap.mpr ⟨d, hd, List.mem_append_left _ (List.mem_map_of_mem hi)⟩)
    obtain ⟨u, hcompletes, -⟩ := Parser.exists_completed_of_mem hmem
    exact hcompletes.1
  exact Typing.holds_scope hnames

theorem eq_of_node_seq_eq (hfew : ¬(Parser.parse tokens).Overflows) {n m : Node}
    (hn : n ∈ (Parser.parse tokens).program.nodes) (hm : m ∈ (Parser.parse tokens).program.nodes)
    (hseq : n.seq = m.seq) : n = m := by
  obtain ⟨found, hfound, -, hnodes⟩ := Parser.exists_in_order hfew
  rw [← hnodes] at hn hm
  have hsame : Parser.Discovery.node n = .node m :=
    eq_of_seq_eq hfound (exists_of_mem_nodes hn) (exists_of_mem_nodes hm) hseq
  cases hsame
  rfl

theorem seq_ne_of_mem_errors (hfew : ¬(Parser.parse tokens).Overflows) {f : Finding} {n : Node}
    (hf : f ∈ (Parser.parse tokens).errors) (hn : n ∈ (Parser.parse tokens).program.nodes) :
    f.seq ≠ n.seq := by
  obtain ⟨found, hfound, herrors, hnodes⟩ := Parser.exists_in_order hfew
  rw [← herrors] at hf
  rw [← hnodes] at hn
  intro hseq
  have hsame : Parser.Discovery.error f = .node n :=
    eq_of_seq_eq hfound (exists_of_mem_errors hf) (exists_of_mem_nodes hn) hseq
  cases hsame

/-! ## The sides of a comparison -/

variable {n : Node} {left right : Side}

theorem mem_allNodes_of_sides? (hn : n ∈ (Parser.parse tokens).program.nodes)
    (hsides : n.sides? = some (left, right)) :
    n ∈ Statement.allNodes (Parser.parse tokens).program.statements := by
  rcases List.mem_append.mp hn with hn | hn
  · cases hsides.symm.trans (sides?_of_mem_declarations hn)
  · exact hn

/-- No more is found at a comparison if a side has no known type. -/
theorem seq_ne_of_undefined (hfew : ¬(Parser.parse tokens).Overflows)
    (hn : n ∈ (Parser.parse tokens).program.nodes) (hsides : n.sides? = some (left, right))
    (hundefined : left.typeIn (Parser.parse tokens).program.scope = .undefined ∨
      right.typeIn (Parser.parse tokens).program.scope = .undefined) :
    ∀ f ∈ Analysis.findings tokens, f.seq ≠ n.seq := by
  intro f hf hseq
  rcases Analysis.mem_findings.mp hf with hf | hf
  · exact seq_ne_of_mem_errors hfew hf hn hseq
  -- What has the number of the node was found at the node itself.
  rw [check_eq_findings] at hf
  rcases List.mem_append.mp hf with hf | hf
  · obtain ⟨m, hm, hmseq, -⟩ := exists_node_of_mem_walk hf
    obtain rfl := eq_of_node_seq_eq hfew hn (List.mem_append_left _ hm) (hseq.symm.trans hmseq.symm)
    cases hsides.symm.trans (sides?_of_mem_declarations hm)
  · obtain ⟨m, hm, hf⟩ := List.mem_flatMap.mp hf
    obtain rfl := eq_of_node_seq_eq hfew hn (List.mem_append_right _ hm)
      (hseq.symm.trans (seq_of_mem_findings hf))
    rw [Node.findings_of_undefined hsides hundefined] at hf
    exact absurd hf List.not_mem_nil

theorem mem_nodes_of_mem_sides {side : Side} (hside : side ∈ [left, right]) {m : Node}
    (hm : m ∈ side.nodes) : m ∈ left.nodes ++ right.nodes := by
  rcases List.mem_cons.mp hside with rfl | hside
  · exact List.mem_append_left _ hm
  · exact List.mem_append_right _ (List.mem_singleton.mp hside ▸ hm)

theorem mem_allNodes_of_mem_side (hn : n ∈ (Parser.parse tokens).program.nodes)
    (hsides : n.sides? = some (left, right)) {side : Side} (hside : side ∈ [left, right]) {m : Node}
    (hm : m ∈ side.nodes) : m ∈ Statement.allNodes (Parser.parse tokens).program.statements := by
  have hinfix := Statement.sidesFirst_allNodes _ n (mem_allNodes_of_sides? hn hsides) left right hsides
  exact hinfix.subset (List.mem_append_left _ (mem_nodes_of_mem_sides hside hm))

theorem seq_lt_of_mem_side (hfew : ¬(Parser.parse tokens).Overflows)
    (hn : n ∈ (Parser.parse tokens).program.nodes) (hsides : n.sides? = some (left, right)) {side : Side}
    (hside : side ∈ [left, right]) {m : Node} (hm : m ∈ side.nodes) : m.seq < n.seq := by
  have hinfix := Statement.sidesFirst_allNodes _ n (mem_allNodes_of_sides? hn hsides) left right hsides
  have horder := (List.pairwise_append.mp (Parser.nodes_in_order hfew)).2.1.sublist hinfix.sublist
  exact (List.pairwise_append.mp horder).2.2 m (mem_nodes_of_mem_sides hside hm) n List.mem_cons_self

/-- Something accounts for each side without a known type, and it was found before. -/
theorem exists_account (hn : n ∈ (Parser.parse tokens).program.nodes)
    (hsides : n.sides? = some (left, right)) {side : Side} (hside : side ∈ [left, right])
    (hundefined : side.typeIn (Parser.parse tokens).program.scope = .undefined) :
    ∃ f ∈ Analysis.findings tokens, (¬(Parser.parse tokens).Overflows → f.seq < n.seq) ∧
      side.AccountedBy (Parser.parse tokens).program f := by
  have hvalues : ∀ stamp token, .part true (.value stamp token) ∈ side.nodes →
      token.kind ∈ TokenKind.value := by
    intro stamp token hm
    have hmem := mem_allNodes_of_mem_side hn hsides hside hm
    obtain ⟨u, hcompletes, -⟩ := Parser.exists_completed_of_mem (List.mem_append_right _ hmem)
    exact hcompletes.1
  cases Side.exists_cause (holds_scope_parse tokens) hvalues hundefined with
  | undeclared htoken hm hfound =>
    have hmem := mem_allNodes_of_mem_side hn hsides hside hm
    have hlisted := List.mem_append_right
      (walk SymbolTable.empty.enter ((Parser.parse tokens).program.declarations.flatMap Declaration.nodes))
      (List.mem_flatMap.mpr ⟨_, hmem, hfound⟩)
    rw [← check_eq_findings] at hlisted
    exact ⟨_, Analysis.mem_findings.mpr (.inr hlisted),
      fun hfew => seq_lt_of_mem_side hfew hn hsides hside hm, .undeclared htoken⟩
  | unread hm hnone =>
    have hmem := mem_allNodes_of_mem_side hn hsides hside hm
    obtain ⟨f, hf, hbefore⟩ := Parser.exists_error_before (List.mem_append_right _ hmem) fun _ h => h
    exact ⟨f, Analysis.mem_findings.mpr (.inl hf),
      fun hfew => lt_trans (hbefore hfew) (seq_lt_of_mem_side hfew hn hsides hside hm),
      .unread (isSyntaxError_of_mem_errors hf) hnone⟩
  | untyped htoken hfirst =>
    obtain ⟨d, hd, htype⟩ := exists_untyped_group hfirst
    have hgroup := group_mem_nodes hd
    obtain ⟨f, hf, hbefore⟩ := Parser.exists_error_before (List.mem_append_left _ hgroup) fun _ h => h htype
    -- All groups come before all statements.
    have hlt (hfew : ¬(Parser.parse tokens).Overflows) : (Node.group d).seq < n.seq :=
      (List.pairwise_append.mp (Parser.nodes_in_order hfew)).2.2 _ hgroup n (mem_allNodes_of_sides? hn hsides)
    exact ⟨f, Analysis.mem_findings.mpr (.inl hf), fun hfew => lt_trans (hbefore hfew) (hlt hfew),
      .untyped (isSyntaxError_of_mem_errors hf) htoken hfirst⟩

end

end PalChecker
