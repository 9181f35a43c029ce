import PalChecker.Proofs.Parser.FaultedExpressions

/-!
# Reading statements with a terminal left out

A statement that lacks a terminal is missed at once, unless it is the one that closes it. A loop or a
conditional that is not closed takes in the statements that follow, and also the terminal that closes
what it stands in if that could close it too; then what it stands in is the one that is left open.
-/

namespace PalChecker.Parser

/-! ## Statements left open -/

theorem Statement.spellings_append (a b : List Statement) :
    Statement.spellings (a ++ b) = Statement.spellings a ++ Statement.spellings b := by
  simp only [Statement.spellings_eq_flatMap, List.flatMap_append]

theorem Statement.spellings_concat (body : List Statement) (st : Statement) :
    Statement.spellings (body ++ [st]) = Statement.spellings body ++ st.spelling := by
  rw [Statement.spellings_append, Statement.spellings, Statement.spellings, List.append_nil]

/-- Where a statement starts that is missed by `n` once it ends, and what kinds could go on with it. -/
inductive Opened : Nonterminal → List TokenKind → List Token → Prop where
  | loop {test : Condition} {body : List Statement} (htest : test.Canonical)
    (hbody : ∀ st ∈ body, st.Canonical) :
    Opened .loop [.keyword .endLoop]
      (.fixed (.keyword .untilCond) ::
        (test.spelling ++ .fixed (.keyword .repeatBody) :: Statement.spellings body))
  | thenBlock {test : Condition} {whenTrue : List Statement} (htest : test.Canonical)
    (hblock : ∀ st ∈ whenTrue, st.Canonical) :
    Opened .conditional [.keyword .elseBranch, .keyword .endIf]
      (.fixed (.keyword .ifCond) ::
        (test.spelling ++ .fixed (.keyword .thenBranch) :: Statement.spellings whenTrue))
  | elseBlock {test : Condition} {whenTrue otherwise : List Statement} (htest : test.Canonical)
    (hblock : ∀ st ∈ whenTrue, st.Canonical) (hotherwise : ∀ st ∈ otherwise, st.Canonical) :
    Opened .conditional [.keyword .endIf]
      (.fixed (.keyword .ifCond) ::
        (test.spelling ++ .fixed (.keyword .thenBranch) ::
          (Statement.spellings whenTrue ++ .fixed (.keyword .elseBranch) ::
            Statement.spellings otherwise)))

namespace Opened

variable {n : Nonterminal} {closers : List TokenKind} {w : List Token} {more : List Statement}

theorem append (h : Opened n closers w) (hmore : ∀ st ∈ more, st.Canonical) :
    Opened n closers (w ++ Statement.spellings more) := by
  cases h with
  | loop htest hbody =>
    have := Opened.loop htest (List.forall_mem_append.mpr ⟨hbody, hmore⟩)
    simpa only [Statement.spellings_append, List.append_assoc, List.cons_append] using this
  | thenBlock htest hblock =>
    have := Opened.thenBlock htest (List.forall_mem_append.mpr ⟨hblock, hmore⟩)
    simpa only [Statement.spellings_append, List.append_assoc, List.cons_append] using this
  | elseBlock htest hblock hotherwise =>
    have := Opened.elseBlock htest hblock (List.forall_mem_append.mpr ⟨hotherwise, hmore⟩)
    simpa only [Statement.spellings_append, List.append_assoc, List.cons_append] using this

theorem endLoop (h : Opened n closers w) (hclose : .keyword .endLoop ∈ closers) :
    n = .loop ∧ ∃ st : Statement, st.Canonical ∧ st.spelling = w ++ [.fixed (.keyword .endLoop)] := by
  cases h with
  | @loop test body htest hbody =>
    refine ⟨rfl, .loop .blank test body, .loop htest hbody, ?_⟩
    simp only [Statement.spelling, List.append_assoc, List.cons_append]
  | thenBlock | elseBlock => exact absurd hclose (by decide)

theorem endIf (h : Opened n closers w) (hclose : .keyword .endIf ∈ closers) :
    n = .conditional ∧
      ∃ st : Statement, st.Canonical ∧ st.spelling = w ++ [.fixed (.keyword .endIf)] := by
  cases h with
  | loop => exact absurd hclose (by decide)
  | @thenBlock test whenTrue htest hblock =>
    refine ⟨rfl, .conditional .blank test whenTrue none, .conditional htest hblock, ?_⟩
    simp only [Statement.spelling, List.append_assoc, List.cons_append]
  | @elseBlock test whenTrue otherwise htest hblock hotherwise =>
    refine ⟨rfl, .conditional .blank test whenTrue (some otherwise),
      .alternative htest hblock hotherwise, ?_⟩
    simp only [Statement.spelling, List.append_assoc, List.cons_append]

theorem elseBranch (h : Opened n closers w) (hclose : .keyword .elseBranch ∈ closers)
    (hmore : ∀ st ∈ more, st.Canonical) :
    n = .conditional ∧ ∃ st : Statement, st.Canonical ∧
      st.spelling = w ++ .fixed (.keyword .elseBranch) ::
        (Statement.spellings more ++ [.fixed (.keyword .endIf)]) := by
  cases h with
  | loop | elseBlock => exact absurd hclose (by decide)
  | @thenBlock test whenTrue htest hblock =>
    refine ⟨rfl, .conditional .blank test whenTrue (some more), .alternative htest hblock hmore, ?_⟩
    simp only [Statement.spelling, List.append_assoc, List.cons_append]

end Opened

/-! ## Reading statements left open -/

section

variable {P : List Diagnostic → Prop} {s : State} {x : Token} {rest : List Token}

/-- A statement left open is missed at a block end that does not close it. -/
theorem Opened.faulted {n : Nonterminal} {closers : List TokenKind} {w : List Token}
    (h : Opened n closers w) (hP : Admits P n) (hx : x.kind ∈ TokenKind.blockEnd)
    (hclosers : x.kind ∉ closers) (hs : s.Sees (w ++ x :: rest)) :
    (statement s.current s.bump).state.Faulted P (x :: rest) := by
  have reread {body : List Statement} (hbody : ∀ st ∈ body, st.Canonical) :
      ∀ st ∈ body, IsStatementReread st := fun st hst => rereads_statement (hbody st hst)
  cases h with
  | loop htest hbody =>
    simp only [List.cons_append, List.append_assoc] at hs
    have hend := (rereads_guarded (n := .loop) htest hbody (reread hbody) hx (hs.bump (by decide))).2.2
    have hsync := (by decide : ∀ k ∈ TokenKind.blockEnd, k ∈ Nonterminal.loop.syncSet) _ hx
    rw [(Prod.mk.inj ((statement_of_until _ _ hs.current_kind).trans (loop_result ..))).2]
    exact (faulted_expectAny _ hP hend hclosers (.inr hsync)).tick
  | thenBlock htest hblock =>
    simp only [List.cons_append, List.append_assoc] at hs
    have hend := (rereads_guarded (n := .conditional) htest hblock (reread hblock) hx
      (hs.bump (by decide))).2.2
    have hsync := (by decide : ∀ k ∈ TokenKind.blockEnd, k ∈ Nonterminal.conditional.syncSet) _ hx
    -- `ELSE` would have closed the block as well.
    obtain ⟨helse, hendIf⟩ := not_or.mp (mt List.mem_cons.mpr hclosers)
    have helse : s.bump.thenBlock.state.kind ≠ .keyword .elseBranch := by
      rw [show s.bump.thenBlock.state.kind = _ from hend.kind]
      exact helse
    rw [(Prod.mk.inj ((statement_of_if _ _ hs.current_kind).trans (conditional_of_ne_else _ helse))).2]
    exact (faulted_expectAny _ hP hend hendIf (.inr hsync)).tick
  | elseBlock htest hblock hotherwise =>
    simp only [List.cons_append, List.append_assoc] at hs
    have hmiddle := (rereads_guarded (n := .conditional) htest hblock (reread hblock) (by decide)
      (hs.bump (by decide))).2.2
    have hend := (rereads_block TokenKind.blockEnd (by decide) hotherwise (reread hotherwise)
      (.of_blockEnd hx) (.inr hx) (hmiddle.bump (by decide))).2
    have hsync := (by decide : ∀ k ∈ TokenKind.blockEnd, k ∈ Nonterminal.conditional.syncSet) _ hx
    rw [(Prod.mk.inj ((statement_of_if _ _ hs.current_kind).trans
      (conditional_of_else _ hmiddle.kind))).2]
    exact (faulted_expectAny _ hP hend hclosers (.inr hsync)).tick

/-! ## Blocks -/

theorem StartsStatement.append {u : List Token} (h : StartsStatement u) (v : List Token) :
    StartsStatement (u ++ v) := by
  obtain ⟨y, u, rfl, hy⟩ := h
  exact ⟨y, u ++ v, rfl, hy⟩

theorem startsStatement_of_canonical {st : Statement} (h : st.Canonical) : StartsStatement st.spelling :=
  exists_cons_of_canonical h

theorem Opened.startsStatement {n : Nonterminal} {closers : List TokenKind} {w : List Token}
    (h : Opened n closers w) : StartsStatement w := by
  cases h with
  | loop | thenBlock | elseBlock => exact ⟨_, _, rfl, by decide⟩

theorem StartsStatement.after {w : List Token} {body : List Statement} (h : StartsStatement w)
    (hbody : ∀ st ∈ body, st.Canonical) : StartsStatement (Statement.spellings body ++ w) := by
  cases body with
  | nil => exact h
  | cons first body =>
    rw [Statement.spellings, List.append_assoc]
    exact (startsStatement_of_canonical (List.forall_mem_cons.mp hbody).1).append _

theorem exists_behind {stops : List TokenKind} {body : List Statement}
    (hstops : ∀ k ∈ TokenKind.statementStart, k ∉ stops) (hbody : ∀ st ∈ body, st.Canonical)
    (hx : Ends x.kind) (h : s.Sees (Statement.spellings body ++ x :: rest)) :
    ∃ t, (statements stops s).state = (statements stops t).state ∧ t.Sees (x :: rest) := by
  induction body generalizing s with
  | nil => exact ⟨s, rfl, h⟩
  | cons first body ih =>
    obtain ⟨hfirst, hmore⟩ := List.forall_mem_cons.mp hbody
    rw [Statement.spellings, List.append_assoc] at h
    have hstart : s.kind ∈ TokenKind.statementStart := by
      obtain ⟨head, tail, hspelling, hhead⟩ := exists_cons_of_canonical hfirst
      rw [hspelling] at h
      exact h.kind ▸ hhead
    obtain ⟨y, more, hy, hkind⟩ := spellings_append_cons hmore x rest
    -- A statement ends where the next one begins, and the last one at `x`.
    have hends : Ends y.kind := by
      rcases hkind with rfl | hkind
      · exact hx
      · exact .of_statementStart hkind
    have hstate := (rereads_statement hfirst hends (hy ▸ h)).2
    obtain ⟨t, ht, hsees⟩ := ih hmore (hy ▸ hstate)
    refine ⟨t, ?_, hsees⟩
    rw [(Prod.mk.inj (statements_of_statementStart hstops hstart)).2]
    exact ht

/-- A block that begins with it is read to its end with one error. -/
structure Contained (P : List Diagnostic → Prop) (w : List Token) : Prop where
  start : StartsStatement w
  block {stops : List TokenKind} {s : State} {more : List Statement} {x : Token} {rest : List Token} :
    (∀ k ∈ TokenKind.statementStart, k ∉ stops) → (∀ st ∈ more, st.Canonical) →
      x.kind ∈ TokenKind.blockEnd → x.kind ∈ stops →
        s.Sees (w ++ (Statement.spellings more ++ x :: rest)) →
          (statements stops s).state.Faulted P (x :: rest)

/-- A block of it alone is read up to `k` with one error. -/
def FaultsBlock (P : List Diagnostic → Prop) (k : TokenKind) (w : List Token) : Prop :=
  ∀ (stops : List TokenKind) {s : State} {x : Token} {rest : List Token},
    (∀ k ∈ TokenKind.statementStart, k ∉ stops) → x.kind = k → k ∈ stops → s.Sees (w ++ x :: rest) →
      (statements stops s).state.Faulted P (x :: rest)

theorem delimiter_of_behindStatement : ∀ k ∈ behindStatement, k ∈ delimiters := by decide

theorem exists_cons_behind {body : List Statement} (hbody : ∀ st ∈ body, st.Canonical)
    (hx : x.kind ∈ TokenKind.blockEnd) (rest : List Token) :
    ∃ y more, Statement.spellings body ++ x :: rest = y :: more ∧ y.kind ∈ behindStatement := by
  obtain ⟨y, more, hy, hkind⟩ := spellings_append_cons hbody x rest
  refine ⟨y, more, hy, ?_⟩
  rcases hkind with rfl | hkind
  · exact List.mem_append_right _ hx
  · exact List.mem_append_left _ hkind

theorem Contained.of_statement {w : List Token} (hstart : StartsStatement w)
    (h : ∀ {s : State} {y : Token} {rest : List Token}, y.kind ∈ behindStatement →
      s.Sees (w ++ y :: rest) → (statement s.current s.bump).state.Faulted P (y :: rest)) :
    Contained P w where
  start := hstart
  block {stops s more x rest} hstops hmore hx hstop hs := by
    obtain ⟨y, behind, hy, hkind⟩ := exists_cons_behind hmore hx rest
    have hfault := h hkind (hy ▸ hs)
    obtain ⟨head, u, rfl, hhead⟩ := hstart
    have hstart : s.kind ∈ TokenKind.statementStart := hs.kind ▸ hhead
    rw [(Prod.mk.inj (statements_of_statementStart hstops hstart)).2]
    exact (hy ▸ hfault).block stops hstops hmore (.of_blockEnd hx) hstop

theorem Contained.append {w : List Token} {after : List Statement} (h : Contained P w)
    (hafter : ∀ st ∈ after, st.Canonical) : Contained P (w ++ Statement.spellings after) where
  start := h.start.append _
  block {stops s more x rest} hstops hmore hx hstop hs := by
    rw [List.append_assoc, ← List.append_assoc (Statement.spellings after),
      ← Statement.spellings_append] at hs
    exact h.block hstops (List.forall_mem_append.mpr ⟨hafter, hmore⟩) hx hstop hs

theorem Contained.after {w : List Token} {before : List Statement} (h : Contained P w)
    (hbefore : ∀ st ∈ before, st.Canonical) : Contained P (Statement.spellings before ++ w) where
  start := h.start.after hbefore
  block {stops s more x rest} hstops hmore hx hstop hs := by
    obtain ⟨y, u, rfl, hy⟩ := h.start
    rw [List.append_assoc] at hs
    obtain ⟨t, ht, hsees⟩ := exists_behind hstops hbefore (.of_statementStart hy) hs
    rw [ht]
    exact h.block hstops hmore hx hstop hsees

theorem Contained.faultsBlock {k : TokenKind} {w : List Token} (h : Contained P w)
    (hk : k ∈ TokenKind.blockEnd) : FaultsBlock P k w := by
  intro stops s x rest hstops hx hstop hs
  subst hx
  have hs : s.Sees (w ++ (Statement.spellings [] ++ x :: rest)) := hs
  exact h.block hstops (fun _ h => absurd h List.not_mem_nil) hk hstop hs

theorem Opened.faultsBlock {n : Nonterminal} {closers : List TokenKind} {k : TokenKind} {u : List Token}
    {before : List Statement} (h : Opened n closers u) (hP : Admits P n)
    (hbefore : ∀ st ∈ before, st.Canonical) (hk : k ∈ TokenKind.blockEnd) (hclosers : k ∉ closers) :
    FaultsBlock P k (Statement.spellings before ++ u) := by
  intro stops s x rest hstops hx hstop hs
  subst hx
  obtain ⟨y, v, rfl, hy⟩ := h.startsStatement
  rw [List.append_assoc] at hs
  obtain ⟨t, ht, hsees⟩ := exists_behind hstops hbefore (.of_statementStart hy) hs
  have hstart : t.kind ∈ TokenKind.statementStart := hsees.kind ▸ hy
  have hfault : State.Faulted P _ (Statement.spellings [] ++ x :: rest) := h.faulted hP hk hclosers hsees
  rw [ht, (Prod.mk.inj (statements_of_statementStart hstops hstart)).2]
  exact hfault.block stops hstops (fun _ h => absurd h List.not_mem_nil) (.of_blockEnd hk) hstop

/-- A statement with one terminal left out. -/
def AlteredStatement (P : List Diagnostic → Prop) (w : List Token) : Prop :=
  Contained P w ∨ ∃ n closers, Admits P n ∧ Opened n closers w

/-- Statements of which one has a terminal left out. -/
def AlteredBlock (P : List Diagnostic → Prop) (w : List Token) : Prop :=
  Contained P w ∨ ∃ before n closers u, w = Statement.spellings before ++ u ∧
    (∀ st ∈ before, st.Canonical) ∧ Admits P n ∧ Opened n closers u

theorem AlteredStatement.block {w : List Token} {before after : List Statement}
    (h : AlteredStatement P w) (hbefore : ∀ st ∈ before, st.Canonical)
    (hafter : ∀ st ∈ after, st.Canonical) :
    AlteredBlock P (Statement.spellings before ++ (w ++ Statement.spellings after)) := by
  rcases h with h | ⟨n, closers, hP, h⟩
  · exact .inl ((h.append hafter).after hbefore)
  · exact .inr ⟨before, n, closers, _, rfl, hbefore, hP, h.append hafter⟩

theorem AlteredBlock.startsStatement {w : List Token} (h : AlteredBlock P w) : StartsStatement w := by
  rcases h with h | ⟨before, n, closers, u, rfl, hbefore, -, h⟩
  · exact h.start
  · exact h.startsStatement.after hbefore

theorem AlteredBlock.faults_or_opened {k : TokenKind} {w : List Token} (h : AlteredBlock P w)
    (hk : k ∈ TokenKind.blockEnd) :
    FaultsBlock P k w ∨ ∃ before n closers u, w = Statement.spellings before ++ u ∧
      (∀ st ∈ before, st.Canonical) ∧ Admits P n ∧ Opened n closers u ∧ k ∈ closers := by
  rcases h with h | ⟨before, n, closers, u, rfl, hbefore, hP, h⟩
  · exact .inl (h.faultsBlock hk)
  · by_cases hclosers : k ∈ closers
    · exact .inr ⟨before, n, closers, u, rfl, hbefore, hP, h, hclosers⟩
    · exact .inl (h.faultsBlock hP hbefore hk hclosers)

end

end PalChecker.Parser
