import Mathlib.Data.List.Nodup
import Mathlib.Order.Defs.LinearOrder
import PalChecker.Proofs.Parser.NumberCosts
import PalChecker.Proofs.Parser.Runs

/-!
# The numbers that a parse hands out

Errors and nodes are numbered by one counter. Every number goes to one error or to one node of the tree,
and the nodes get theirs each after its parts, whatever is recovered from.
-/

namespace PalChecker

instance : LinearOrder SeqNumber where
  le_refl _ := Nat.le_refl _
  le_trans _ _ _ := Nat.le_trans
  le_antisymm _ _ h h' := SeqNumber.eq_of_toNat_eq (Nat.le_antisymm h h')
  le_total _ _ := Nat.le_total _ _
  lt_iff_le_not_ge _ _ := Nat.lt_iff_le_and_not_ge
  toDecidableLE := inferInstance

namespace Parser

inductive Discovery where
  | error (f : Finding)
  | node (n : Node)

namespace Discovery

def seq : Discovery → SeqNumber
  | error f => f.seq
  | node n => n.seq

def error? : Discovery → Option Finding
  | error f => some f
  | node _ => none

def node? : Discovery → Option Node
  | error _ => none
  | node n => some n

end Discovery

/-- From `s` to `t` the nodes were completed, in this order and with errors in between. -/
def Numbers (s : State) (nodes : List Node) (t : State) : Prop :=
  ∃ found : List Discovery,
    found.map Discovery.seq = (List.range' s.issued found.length).map .ofNat ∧
      t.issued = s.issued + found.length ∧
        t.errors = s.errors ++ found.filterMap Discovery.error? ∧
          found.filterMap Discovery.node? = nodes

namespace Numbers

variable {s t u : State} {a b : List Node}

theorem of_same (hissued : t.issued = s.issued) (herrors : t.errors = s.errors) : Numbers s [] t :=
  ⟨[], rfl, hissued, herrors.trans (List.append_nil _).symm, rfl⟩

theorem refl (s : State) : Numbers s [] s := of_same rfl rfl

theorem trans (ha : Numbers s a t) (hb : Numbers t b u) : Numbers s (a ++ b) u := by
  obtain ⟨first, hfirst, hnext, herrors, rfl⟩ := ha
  obtain ⟨rest, hrest, hnext', herrors', rfl⟩ := hb
  refine ⟨first ++ rest, ?_, ?_, ?_, List.filterMap_append⟩
  · rw [List.map_append, hfirst, hrest, hnext, List.length_append, ← List.map_append, List.range'_append_1]
  · rw [List.length_append]
    omega
  · rw [herrors', herrors, List.filterMap_append, List.append_assoc]

theorem then_same (h : Numbers s a t) (hissued : u.issued = t.issued) (herrors : u.errors = t.errors) :
    Numbers s a u := by
  have := h.trans (of_same hissued herrors)
  rwa [List.append_nil] at this

theorem issued_le (h : Numbers s a t) : s.issued ≤ t.issued := by
  obtain ⟨found, -, hissued, -⟩ := h
  exact hissued ▸ Nat.le_add_right _ _

theorem complete (h : Numbers s a t) {n : Node} (hn : n.seq = t.nextSeq) :
    Numbers s (a ++ [n]) t.tick := by
  refine h.trans ⟨[.node n], ?_, rfl, (List.append_nil _).symm, rfl⟩
  change [n.seq] = [t.nextSeq]
  rw [hn]

theorem fail (h : Numbers s a t) (n : Nonterminal) : Numbers s a (t.fail n) := by
  cases hrecovering : t.recovering with
  | true =>
    exact h.then_same (t.issued_fail_of_recovering n hrecovering)
      (t.errors_fail_of_recovering n hrecovering)
  | false =>
    have hfail : Numbers t [] (t.fail n) :=
      ⟨[.error ⟨t.nextSeq, .syntaxError n t.current⟩], rfl,
        t.issued_fail_of_not_recovering n hrecovering,
        t.errors_fail_of_not_recovering n hrecovering, rfl⟩
    have := h.trans hfail
    rwa [List.append_nil] at this

end Numbers

theorem Builds.numbers {s t : State} {nodes : List Node} (h : Builds s nodes t) :
    Numbers s nodes t := by
  induction h with
  | refl => exact .refl s
  | @move t _ _ _ hmove ih =>
    cases hmove with
    | consume => exact ih.then_same t.issued_bump t.errors_bump
    | fail n => exact ih.fail n
    | discard => exact ih.then_same rfl t.errors_discard
    | skip n extra => exact ih.then_same (t.issued_synchronize n extra) (t.errors_synchronize n extra)
  | complete _ hseq _ ih => exact ih.complete hseq

/-- The numbers from zero up go to the errors and to the nodes of the tree, each to one. -/
theorem numbers_parse (tokens : List Token) :
    Numbers (.ofTokens tokens) (parse tokens).program.nodes (parse tokens).final :=
  (builds_parse tokens).numbers

/-! ## Numbers from zero up -/

variable {found : List Discovery}

theorem increasing_of_range (hrange : found.map Discovery.seq = (List.range found.length).map .ofNat)
    (hlength : found.length ≤ UInt32.size) : found.Pairwise (·.seq < ·.seq) := by
  rw [← List.pairwise_map, hrange, List.pairwise_map]
  refine List.pairwise_lt_range.imp_of_mem fun {i j} hi hj hlt => ?_
  have hvalue {k : Nat} (hk : k ∈ List.range found.length) : (SeqNumber.ofNat k).toNat = k :=
    SeqNumber.toNat_ofNat_of_lt (Nat.lt_of_lt_of_le (List.mem_range.mp hk) hlength)
  rwa [SeqNumber.lt_iff_toNat_lt, hvalue hi, hvalue hj]

theorem errors_increase (hfound : found.Pairwise (·.seq < ·.seq)) :
    (found.filterMap Discovery.error?).Pairwise (·.seq < ·.seq) := by
  refine List.pairwise_filterMap.mpr (hfound.imp fun {x y} hlt f hf g hg => ?_)
  cases x <;> cases y <;> cases hf <;> cases hg
  exact hlt

theorem nodes_increase (hfound : found.Pairwise (·.seq < ·.seq)) :
    (found.filterMap Discovery.node?).Pairwise (·.seq < ·.seq) := by
  refine List.pairwise_filterMap.mpr (hfound.imp fun {x y} hlt n hn m hm => ?_)
  cases x <;> cases y <;> cases hn <;> cases hm
  exact hlt

theorem perm_seqs (found : List Discovery) :
    ((found.filterMap Discovery.error?).map Finding.seq ++
      (found.filterMap Discovery.node?).map Node.seq).Perm (found.map Discovery.seq) := by
  induction found with
  | nil => exact .refl _
  | cons x found ih =>
    cases x with
    | error f => exact ih.cons f.seq
    | node n => exact List.perm_middle.trans (ih.cons n.seq)

/-! ## The numbers of a parse -/

def Outcome.seqs (o : Outcome) : List SeqNumber :=
  o.errors.map Finding.seq ++ o.program.nodes.map Node.seq

section

variable {tokens : List Token}

theorem exists_discovered (tokens : List Token) :
    ∃ found : List Discovery, found.length = (parse tokens).final.issued ∧
      found.map Discovery.seq = (List.range found.length).map .ofNat ∧
        found.filterMap Discovery.error? = (parse tokens).errors ∧
          found.filterMap Discovery.node? = (parse tokens).program.nodes := by
  obtain ⟨found, hseq, hissued, herrors, hnodes⟩ := numbers_parse tokens
  have hrange : found.map Discovery.seq = (List.range found.length).map .ofNat := by
    rw [List.range_eq_range']
    exact hseq
  exact ⟨found, (hissued.trans (Nat.zero_add _)).symm, hrange, herrors.symm, hnodes⟩

theorem exists_in_order (h : ¬(parse tokens).Overflows) :
    ∃ found : List Discovery, found.Pairwise (·.seq < ·.seq) ∧
      found.filterMap Discovery.error? = (parse tokens).errors ∧
        found.filterMap Discovery.node? = (parse tokens).program.nodes := by
  obtain ⟨found, hlength, hrange, herrors, hnodes⟩ := exists_discovered tokens
  have hsize : found.length ≤ UInt32.size := hlength ▸ Nat.le_of_not_le h
  exact ⟨found, increasing_of_range hrange hsize, herrors, hnodes⟩

theorem errors_in_order (h : ¬(parse tokens).Overflows) :
    (parse tokens).errors.Pairwise (·.seq < ·.seq) := by
  obtain ⟨found, hfound, herrors, -⟩ := exists_in_order h
  exact herrors ▸ errors_increase hfound

theorem nodes_in_order (h : ¬(parse tokens).Overflows) :
    (parse tokens).program.nodes.Pairwise (·.seq < ·.seq) := by
  obtain ⟨found, hfound, -, hnodes⟩ := exists_in_order h
  exact hnodes ▸ nodes_increase hfound

theorem perm_seqs_parse (tokens : List Token) :
    (parse tokens).seqs.Perm ((List.range (parse tokens).final.issued).map .ofNat) := by
  obtain ⟨found, hlength, hrange, herrors, hnodes⟩ := exists_discovered tokens
  rw [Outcome.seqs, ← hlength, ← hrange, ← herrors, ← hnodes]
  exact perm_seqs found

theorem toNat_seqs_parse (h : ¬(parse tokens).Overflows) :
    ((parse tokens).seqs.map SeqNumber.toNat).Perm (List.range (parse tokens).final.issued) := by
  refine ((perm_seqs_parse tokens).map SeqNumber.toNat).trans (List.Perm.of_eq ?_)
  rw [List.map_map]
  refine (List.map_congr_left fun k hk => ?_).trans (List.map_id _)
  exact SeqNumber.toNat_ofNat_of_lt (Nat.lt_trans (List.mem_range.mp hk) (Nat.lt_of_not_le h))

theorem nodup_seqs_iff (tokens : List Token) :
    (parse tokens).seqs.Nodup ↔ (parse tokens).final.issued ≤ UInt32.size := by
  rw [(perm_seqs_parse tokens).nodup_iff]
  constructor
  · intro hnodup
    by_contra hmany
    -- The first number comes again after all the others.
    have hlt : UInt32.size < (parse tokens).final.issued := Nat.lt_of_not_le hmany
    have hsame : SeqNumber.ofNat 0 = .ofNat UInt32.size :=
      SeqNumber.eq_of_toNat_eq (Nat.mod_self UInt32.size).symm
    have hzero := List.inj_on_of_nodup_map hnodup (List.mem_range.mpr (Nat.zero_lt_of_lt hlt))
      (List.mem_range.mpr hlt) hsame
    exact absurd hzero (by decide)
  · intro hfew
    have hvalue {k : Nat} (hk : k ∈ List.range (parse tokens).final.issued) : (SeqNumber.ofNat k).toNat = k :=
      SeqNumber.toNat_ofNat_of_lt (Nat.lt_of_lt_of_le (List.mem_range.mp hk) hfew)
    refine List.nodup_range.map_on fun i hi j hj hij => ?_
    rw [← hvalue hi, ← hvalue hj, hij]

end

/-- The numbers from zero up go to the errors and the nodes, each to one. The errors are in the order of
their numbers, and so are the nodes, each after its parts. -/
structure SharesOut (o : Outcome) : Prop where
  distinct : o.seqs.Nodup
  exact : (o.seqs.map SeqNumber.toNat).Perm (List.range o.final.issued)
  errors_increase : o.errors.Pairwise (·.seq < ·.seq)
  nodes_increase : o.program.nodes.Pairwise (·.seq < ·.seq)

end Parser

end PalChecker
