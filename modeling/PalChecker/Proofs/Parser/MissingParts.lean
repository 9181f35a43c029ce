import PalChecker.Proofs.Parser.CleanRuns
import PalChecker.Proofs.Suppression

/-!
# Every missing part is behind its own error

A part is missing from the tree only where an error is recovered from. Names and values are completed only
behind a consumed token, which ends recovery. So between the last error and the missing part none is.
-/

namespace PalChecker

/-- A name or a value. -/
def Node.IsLeaf : Node → Prop
  | ident _ _ | part _ (.value _ _) => True
  | part _ _ | condition _ | statement _ | group _ => False

namespace Parser

/-- The error `f` is the last one before the number `seq`, and no name or value is numbered in between. -/
structure Blames (o : Outcome) (seq : SeqNumber) (f : Finding) : Prop where
  mem : f ∈ o.errors
  isSyntaxError : f.diagnostic.IsSyntaxError
  lt : f.seq < seq
  latest : ∀ g ∈ o.errors, g.seq < seq → g.seq ≤ f.seq
  no_leaf : ∀ n ∈ o.program.nodes, n.IsLeaf → f.seq < n.seq → seq ≤ n.seq

/-! ## The numbers of a run -/

section

variable {s t : State} {nodes : List Node}

theorem Discovery.bounds {found : List Discovery} {start : Nat}
    (hrange : found.map Discovery.seq = (List.range' start found.length).map .ofNat)
    (hsize : start + found.length ≤ UInt32.size) {x : Discovery} (hx : x ∈ found) :
    start ≤ x.seq.toNat ∧ x.seq.toNat < start + found.length := by
  have hseq := List.mem_map_of_mem (f := Discovery.seq) hx
  rw [hrange] at hseq
  obtain ⟨k, hk, hvalue⟩ := List.mem_map.mp hseq
  rw [List.mem_range'_1] at hk
  rw [← hvalue, SeqNumber.toNat_ofNat_of_lt (Nat.lt_of_lt_of_le hk.2 hsize)]
  exact hk

theorem Numbers.bounds {n : Node} (h : Numbers s nodes t) (ht : t.issued ≤ UInt32.size) (hn : n ∈ nodes) :
    s.issued ≤ n.seq.toNat ∧ n.seq.toNat < t.issued := by
  obtain ⟨found, hrange, hissued, -, rfl⟩ := h
  exact hissued ▸ Discovery.bounds hrange (hissued ▸ ht) (exists_of_mem_nodes hn)

theorem Numbers.exists_errors (h : Numbers s nodes t) (ht : t.issued ≤ UInt32.size) :
    ∃ more, t.errors = s.errors ++ more ∧ ∀ f ∈ more, s.issued ≤ f.seq.toNat ∧ f.seq.toNat < t.issued := by
  obtain ⟨found, hrange, hissued, herrors, -⟩ := h
  exact ⟨_, herrors, fun f hf =>
    hissued ▸ Discovery.bounds hrange (hissued ▸ ht) (exists_of_mem_errors hf)⟩

theorem Builds.errors_lt {tokens : List Token} (h : Builds (.ofTokens tokens) nodes t)
    (ht : t.issued ≤ UInt32.size) : ∀ f ∈ t.errors, f.seq.toNat < t.issued := by
  obtain ⟨more, herrors, hmore⟩ := h.numbers.exists_errors ht
  rw [herrors]
  exact fun f hf => (hmore f hf).2

end

/-! ## The error that is recovered from -/

/-- The last error, behind which no name or value was completed. -/
structure State.Cause (s : State) (nodes : List Node) (f : Finding) : Prop where
  mem : f ∈ s.errors
  latest : ∀ g ∈ s.errors, g.seq ≤ f.seq
  leaves : ∀ n ∈ nodes, n.IsLeaf → n.seq < f.seq

theorem State.Cause.of_errors_eq {s t : State} {nodes : List Node} {f : Finding} (h : s.Cause nodes f)
    (herrors : t.errors = s.errors) : t.Cause nodes f :=
  ⟨herrors ▸ h.mem, herrors ▸ h.latest, h.leaves⟩

theorem State.Completes.not_isLeaf {s : State} {n : Node} (h : s.Completes n) (hs : s.recovering = true) :
    ¬n.IsLeaf := by
  cases n with
  | ident _ i => exact fun _ => absurd h.2 (by simp [hs])
  | part _ e =>
    cases e with
    | value _ token => exact fun _ => absurd h.2 (by simp [hs])
    | unary | binary | group | error => exact id
  | condition | statement | group => exact id

theorem Builds.exists_cause {tokens : List Token} {nodes : List Node} {t : State}
    (h : Builds (.ofTokens tokens) nodes t) (hsize : t.issued ≤ UInt32.size) (ht : t.recovering = true) :
    ∃ f, t.Cause nodes f := by
  induction h with
  | refl => cases ht
  | @move t u nodes hbuilds hmove ih =>
    have hsize' : t.issued ≤ UInt32.size := Nat.le_trans (one_move hmove).numbers.issued_le hsize
    cases hmove with
    | consume => cases ht
    | fail n =>
      cases hs : t.recovering with
      | true =>
        obtain ⟨f, hf⟩ := ih hsize' hs
        exact ⟨f, hf.of_errors_eq (t.errors_fail_of_recovering n hs)⟩
      | false =>
        -- The new error has the next number, and all that came before it have smaller ones.
        have herrors := t.errors_fail_of_not_recovering n hs
        rw [t.issued_fail_of_not_recovering n hs] at hsize
        have hvalue : t.nextSeq.toNat = t.issued := SeqNumber.toNat_ofNat_of_lt hsize
        refine ⟨⟨t.nextSeq, .syntaxError n t.current⟩, ?_, ?_, fun m hm _ => ?_⟩
        · rw [herrors]
          exact List.mem_append_right _ List.mem_cons_self
        · rw [herrors, List.forall_mem_append, List.forall_mem_singleton]
          refine ⟨fun g hg => ?_, le_rfl⟩
          rw [SeqNumber.le_iff_toNat_le, hvalue]
          exact Nat.le_of_lt (hbuilds.errors_lt hsize' g hg)
        · rw [SeqNumber.lt_iff_toNat_lt, hvalue]
          exact (hbuilds.numbers.bounds hsize' hm).2
    | discard _ hs =>
      obtain ⟨f, hf⟩ := ih hsize' hs
      exact ⟨f, hf.of_errors_eq t.errors_discard⟩
    | skip n extra hs =>
      obtain ⟨f, hf⟩ := ih hsize' hs
      exact ⟨f, hf.of_errors_eq (t.errors_synchronize n extra)⟩
  | @complete t nodes n hbuilds _ hcompletes ih =>
    obtain ⟨f, hf⟩ := ih (Nat.le_of_succ_le hsize) ht
    refine ⟨f, hf.mem, hf.latest, ?_⟩
    rw [List.forall_mem_append, List.forall_mem_singleton]
    exact ⟨hf.leaves, fun hleaf => absurd hleaf (hcompletes.not_isLeaf ht)⟩

/-! ## Where a run recovers -/

/-- An error is recovered from where `issued` numbers were handed out. -/
def Recovers (s : State) (nodes : List Node) (t : State) (issued : Nat) : Prop :=
  ∃ before after u, nodes = before ++ after ∧ Builds s before u ∧ Builds u after t ∧
    u.recovering = true ∧ u.issued = issued

namespace Recovers

variable {s t u : State} {a b : List Node} {issued : Nat}

theorem extend (h : Recovers s a t issued) (hb : Builds t b u) : Recovers s (a ++ b) u issued := by
  obtain ⟨before, after, v, rfl, hbefore, hafter, hv, hissued⟩ := h
  exact ⟨before, after ++ b, v, List.append_assoc .., hbefore, hafter.trans hb, hv, hissued⟩

theorem behind (ha : Builds s a t) (h : Recovers t b u issued) : Recovers s (a ++ b) u issued := by
  obtain ⟨before, after, v, rfl, hbefore, hafter, hv, hissued⟩ := h
  exact ⟨a ++ before, after, v, (List.append_assoc ..).symm, ha.trans hbefore, hafter, hv, hissued⟩

theorem exists_blamed {tokens : List Token} (hfew : ¬(parse tokens).Overflows)
    (h : Recovers (.ofTokens tokens) (parse tokens).program.nodes (parse tokens).final issued) :
    ∃ f, Blames (parse tokens) (.ofNat issued) f := by
  obtain ⟨before, after, v, hnodes, hbefore, hafter, hv, rfl⟩ := h
  have hsize : (parse tokens).final.issued < UInt32.size := Nat.lt_of_not_le hfew
  have hlt : v.issued < UInt32.size := Nat.lt_of_le_of_lt hafter.numbers.issued_le hsize
  have hvalue : (SeqNumber.ofNat v.issued).toNat = v.issued := SeqNumber.toNat_ofNat_of_lt hlt
  obtain ⟨f, hf⟩ := hbefore.exists_cause (Nat.le_of_lt hlt) hv
  obtain ⟨more, hmore, hlater⟩ := hafter.numbers.exists_errors (Nat.le_of_lt hsize)
  have herrors : (parse tokens).errors = v.errors ++ more := hmore
  have hmem : f ∈ (parse tokens).errors := herrors ▸ List.mem_append_left more hf.mem
  refine ⟨f, hmem, isSyntaxError_of_mem_errors hmem, ?_, fun g hg hbelow => ?_, fun n hn hleaf hbehind => ?_⟩
  · rw [SeqNumber.lt_iff_toNat_lt, hvalue]
    exact hbefore.errors_lt (Nat.le_of_lt hlt) f hf.mem
  · -- Errors that were reported later have greater numbers.
    rw [SeqNumber.lt_iff_toNat_lt, hvalue] at hbelow
    rcases List.mem_append.mp (herrors ▸ hg) with hg | hg
    · exact hf.latest g hg
    · exact absurd hbelow (Nat.not_lt.mpr (hlater g hg).1)
  · -- Of the leaves, the earlier ones come before the error, and the later ones behind the place.
    rw [SeqNumber.le_iff_toNat_le, hvalue]
    rcases List.mem_append.mp (hnodes ▸ hn) with hn | hn
    · exact absurd hbehind (lt_asymm (hf.leaves n hn hleaf))
    · exact (hafter.numbers.bounds (Nat.le_of_lt hsize) hn).1

end Recovers

/-! ## Operands, types and operators -/

theorem Builds.recovers {s t : State} {nodes : List Node} {n : Node} (h : Builds s nodes t) (hn : n ∈ nodes)
    (hmissing : ∀ u : State, u.Completes n → u.recovering = true) :
    ∃ issued, n.seq = .ofNat issued ∧ Recovers s nodes t issued := by
  obtain ⟨before, after, u, rfl, hbefore, hcompletes, hseq, hafter⟩ := h.exists_split hn
  exact ⟨u.issued, hseq, before, n :: after, u, rfl, hbefore, hafter, hmissing u hcompletes, rfl⟩

/-- A run that comes to the right side of each condition without an operator while it recovers. -/
def ReadsConditions (s : State) (nodes : List Node) (t : State) : Prop :=
  Builds s nodes t ∧ ∀ c, .condition c ∈ nodes → c.op = none →
    ∃ issued, Recovers s nodes t issued ∧
      (t.issued ≤ UInt32.size → ∀ n ∈ c.right.nodes true, issued ≤ n.seq.toNat)

theorem gathers_readsConditions : Gathers ReadsConditions where
  of_builds hno h := ⟨h, fun c hc => absurd hc (hno c)⟩
  trans {s t u a b} ha hb := by
    refine ⟨ha.1.trans hb.1, fun c hc hop => ?_⟩
    rcases List.mem_append.mp hc with hc | hc
    · obtain ⟨issued, hrecovers, hright⟩ := ha.2 c hc hop
      exact ⟨issued, hrecovers.extend hb.1, fun hsize => hright (Nat.le_trans hb.1.numbers.issued_le hsize)⟩
    · obtain ⟨issued, hrecovers, hright⟩ := hb.2 c hc hop
      exact ⟨issued, hrecovers.behind ha.1, hright⟩

theorem readsConditions_condition (s : State) :
    ReadsConditions s (condition s).value.nodes (condition s).state := by
  let op := (expression s).state.expectAny TokenKind.relationalOperator .booleanExpr
  have hop : Builds s ((expression s).value.nodes true) op.state :=
    (builds_expression s true).expectAny _ .booleanExpr (by decide)
  have hright := builds_expression op.state true
  refine ⟨building_part_rules.run_test builds_expression s, fun c hc hnone => ?_⟩
  obtain rfl : c = (condition s).value := by
    -- Expressions hold no conditions, so the only one among the nodes is the last.
    rcases List.mem_append.mp hc with hc | hc
    · rcases List.mem_append.mp hc with hc | hc
      · exact absurd hc (Expr.condition_not_mem_nodes c true _)
      · exact absurd hc (Expr.condition_not_mem_nodes c true _)
    · cases List.mem_singleton.mp hc
      rfl
  -- A token that was found would have given the operator.
  have hmissing : op.value = none := by
    cases htoken : op.value with
    | none => rfl
    | some token =>
      obtain ⟨o, ho⟩ := RelationalOp.exists_of_mem (State.expectAny_of_some htoken).1
      have hsome : (condition s).value.op = some o :=
        (congrArg (Option.bind · _) htoken).trans (RelationalOp.ofKind?_eq_some_iff.mpr ho)
      exact absurd (hsome.symm.trans hnone) (by simp)
  refine ⟨op.state.issued, ⟨_, _, op.state, List.append_assoc .., hop, ?_,
    State.recovering_expectAny_of_none hmissing, rfl⟩, fun hsize n hn => ?_⟩
  · exact hright.complete rfl trivial
  · exact (hright.numbers.bounds (Nat.le_of_succ_le hsize) hn).1

/-! ## Missing parts -/

/-- What is missing inside of the tree of a parse is behind an error of its own. -/
structure AccountsForMissing (o : Outcome) : Prop where
  operand : ∀ checked stamp, .part checked (.error stamp) ∈ o.program.nodes → ∃ f, Blames o stamp.seq f
  type : ∀ d ∈ o.program.declarations, d.type = none → ∃ f, Blames o d.stamp.seq f
  /-- The error comes before all of the right side. -/
  operator : ∀ c, .condition c ∈ o.program.nodes → c.op = none →
    ∃ seq f, Blames o seq f ∧ ∀ n ∈ c.right.nodes true, seq ≤ n.seq

end Parser

end PalChecker
