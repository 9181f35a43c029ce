import PalChecker.Proofs.Parser.FaultedStatements

/-!
# Each statement with a terminal left out

For each terminal of each statement, and for each part that lacks one inside: what the statement is then.
-/

namespace PalChecker.Parser

open Grammar (Construct)

section

variable {P : List Diagnostic → Prop} {s : State} {x y : Token} {rest : List Token}

theorem forall_mem_concat {α : Type} {good : α → Prop} {xs : List α} {x : α} (hxs : ∀ a ∈ xs, good a)
    (hx : good x) : ∀ a ∈ xs ++ [x], good a :=
  List.forall_mem_append.mpr ⟨hxs, List.forall_mem_singleton.mpr hx⟩

/-! ## Assignments and outputs -/

theorem contained_assignment {target : Token} {w : List Token} (hP : Admits P .factor)
    (htarget : target.kind = .identifier) (hw : Construct.expression.Unclosed w) :
    Contained P (target :: .fixed (.punct .equals) :: w.map Token.essence) := by
  refine .of_statement ⟨_, _, rfl, by rw [htarget]; decide⟩ fun {s y rest} hy hs => ?_
  simp only [List.cons_append] at hs
  have hkind : s.current.kind = .identifier := hs.kind.trans htarget
  obtain ⟨hequals, hvalue⟩ := sees_expect .assignment (hs.bump (by rw [htarget]; decide)).tick trivial
  have hsome : (s.bump.tick.expect (.punct .equals) .assignment).value.isSome := by
    rw [hequals]
    rfl
  have hfault := faulted_of_unclosed hP hw (delimiter_of_behindStatement _ hy) hvalue
  rw [(Prod.mk.inj ((statement_of_identifier _ _ hkind).trans (assignment_of_some _ hsome))).2]
  exact hfault.tick

theorem exists_cons_of_afterCommas (parts : List (List Token)) (hy : y.kind ∈ behindStatement)
    (rest : List Token) :
    ∃ z more, afterCommas parts ++ y :: rest = z :: more ∧ z.kind ∈ delimiters := by
  obtain ⟨z, more, hz, hkind⟩ := afterCommas_append parts y rest
  refine ⟨z, more, hz, ?_⟩
  rcases hkind with rfl | hkind
  · exact delimiter_of_behindStatement _ hy
  · rw [hkind]
    decide

theorem faulted_value {w : List Token} {after : List Expr} (hP : Admits P .factor)
    (hw : Construct.expression.Unclosed w) (hafter : ∀ e ∈ after, e.Canonical)
    (hy : y.kind ∈ behindStatement)
    (h : s.Sees (w.map Token.essence ++ (afterCommas (after.map Expr.spelling) ++ y :: rest))) :
    (moreValues (expression s).state).state.Faulted P (y :: rest) := by
  obtain ⟨z, more, hz, hkind⟩ := exists_cons_of_afterCommas (after.map Expr.spelling) hy rest
  rw [hz] at h
  have hfault := faulted_of_unclosed hP hw hkind h
  rw [← hz] at hfault
  exact hfault.moreValues hafter (ends_of_behindStatement hy)

theorem sees_past_value {e : Expr} {parts : List (List Token)} (he : e.Canonical)
    (h : s.Sees (e.spelling ++ (afterCommas parts ++ .fixed (.punct .comma) :: rest))) :
    (expression s).state.Sees (afterCommas parts ++ .fixed (.punct .comma) :: rest) := by
  obtain ⟨z, more, hz, hkind⟩ := afterCommas_append parts (.fixed (.punct .comma)) rest
  have hcomma : z.kind = .punct .comma := by
    rcases hkind with rfl | hkind
    · rfl
    · exact hkind
  rw [hz] at h ⊢
  exact (rereads_expression he (by rw [hcomma]; rfl) (by rw [hcomma]; rfl) h).2

theorem faulted_moreValues {w : List Token} {before after : List Expr} (hP : Admits P .factor)
    (hw : Construct.expression.Unclosed w) (hbefore : ∀ e ∈ before, e.Canonical)
    (hafter : ∀ e ∈ after, e.Canonical) (hy : y.kind ∈ behindStatement)
    (h : s.Sees (afterCommas (before.map Expr.spelling) ++ .fixed (.punct .comma) ::
      (w.map Token.essence ++ (afterCommas (after.map Expr.spelling) ++ y :: rest)))) :
    (moreValues s).state.Faulted P (y :: rest) := by
  induction before generalizing s with
  | nil =>
    have h : s.Sees (.fixed (.punct .comma) :: _) := h
    rw [(Prod.mk.inj (moreValues_of_comma h.kind)).2]
    exact faulted_value hP hw hafter hy (h.bump (by decide))
  | cons e before ih =>
    obtain ⟨he, hmore⟩ := List.forall_mem_cons.mp hbefore
    simp only [List.map_cons, afterCommas_cons, List.cons_append, List.append_assoc] at h
    rw [(Prod.mk.inj (moreValues_of_comma h.kind)).2]
    exact ih hmore (sees_past_value he (h.bump (by decide)))

theorem contained_output_first {w : List Token} {after : List Expr} (hP : Admits P .factor)
    (hw : Construct.expression.Unclosed w) (hafter : ∀ e ∈ after, e.Canonical) :
    Contained P (.fixed (.keyword .output) ::
      (w.map Token.essence ++ afterCommas (after.map Expr.spelling))) := by
  refine .of_statement ⟨_, _, rfl, by decide⟩ fun {s y rest} hy hs => ?_
  simp only [List.cons_append, List.append_assoc] at hs
  rw [(Prod.mk.inj ((statement_of_output _ _ hs.current_kind).trans (output_result ..))).2]
  exact (faulted_value hP hw hafter hy (hs.bump (by decide))).tick

theorem contained_output_later {first : Expr} {w : List Token} {before after : List Expr}
    (hP : Admits P .factor) (hfirst : first.Canonical) (hw : Construct.expression.Unclosed w)
    (hbefore : ∀ e ∈ before, e.Canonical) (hafter : ∀ e ∈ after, e.Canonical) :
    Contained P (.fixed (.keyword .output) :: (first.spelling ++ (afterCommas (before.map Expr.spelling) ++
      .fixed (.punct .comma) :: (w.map Token.essence ++ afterCommas (after.map Expr.spelling))))) := by
  refine .of_statement ⟨_, _, rfl, by decide⟩ fun {s y rest} hy hs => ?_
  simp only [List.cons_append, List.append_assoc] at hs
  have hread := sees_past_value hfirst (hs.bump (by decide))
  rw [(Prod.mk.inj ((statement_of_output _ _ hs.current_kind).trans (output_result ..))).2]
  exact (faulted_moreValues hP hw hbefore hafter hy hread).tick

/-! ## Loops -/

section

variable {test : Condition} {body : List Statement}

theorem faulted_loop (start : Location)
    (h : ((condition s).state.expect (.keyword .repeatBody) .loop).state.Faulted P
      (Statement.spellings body ++ .fixed (.keyword .endLoop) :: rest))
    (hbody : ∀ st ∈ body, st.Canonical) : (loop start s).state.Faulted P rest := by
  have hend := h.block TokenKind.blockEnd (by decide) hbody (.keyword _) (by decide)
  rw [(Prod.mk.inj (loop_result start s)).2]
  exact (hend.expect .loop trivial).tick

theorem contained_loop_of_test {w : List Token} (htest : FaultsTest P w)
    (hbody : ∀ st ∈ body, st.Canonical) :
    Contained P (.fixed (.keyword .untilCond) :: (w.map Token.essence ++
      .fixed (.keyword .repeatBody) :: (Statement.spellings body ++ [.fixed (.keyword .endLoop)]))) := by
  refine .of_statement ⟨_, _, rfl, by decide⟩ fun {s y rest} hy hs => ?_
  simp only [List.cons_append, List.append_assoc, List.nil_append] at hs
  have hfault := htest (by decide) (hs.bump (by decide))
  rw [(Prod.mk.inj (statement_of_until _ _ hs.current_kind)).2]
  exact faulted_loop _ (hfault.expect .loop trivial) hbody

theorem contained_loop_of_repeat (hP : Admits P .loop) (htest : test.Canonical)
    (hbody : ∀ st ∈ body, st.Canonical) :
    Contained P (.fixed (.keyword .untilCond) :: (test.spelling ++
      (Statement.spellings body ++ [.fixed (.keyword .endLoop)]))) := by
  refine .of_statement ⟨_, _, rfl, by decide⟩ fun {s y rest} hy hs => ?_
  simp only [List.cons_append, List.append_assoc, List.nil_append] at hs
  obtain ⟨z, more, hz, hkind⟩ :=
    exists_cons_behind (x := .fixed (.keyword .endLoop)) hbody (by decide) (y :: rest)
  have hbump := hs.bump (by decide)
  rw [hz] at hbump
  have hread := (rereads_condition htest (ends_of_behindStatement hkind) hbump).2
  have hfault := faulted_expectAny _ hP hread
    ((by decide : ∀ k ∈ behindStatement, k ∉ [TokenKind.keyword .repeatBody]) _ hkind)
    (.inr ((by decide : ∀ k ∈ behindStatement, k ∈ Nonterminal.loop.syncSet) _ hkind))
  rw [← hz] at hfault
  rw [(Prod.mk.inj (statement_of_until _ _ hs.current_kind)).2]
  exact faulted_loop _ hfault hbody

theorem altered_loop_of_body {w : List Token} (htest : test.Canonical) (hw : AlteredBlock P w) :
    AlteredStatement P (.fixed (.keyword .untilCond) :: (test.spelling ++
      .fixed (.keyword .repeatBody) :: (w ++ [.fixed (.keyword .endLoop)]))) := by
  rcases hw.faults_or_opened (k := .keyword .endLoop) (by decide) with
    hw | ⟨before, n, closers, u, rfl, hbefore, hP, hopened, hclose⟩
  · refine .inl (.of_statement ⟨_, _, rfl, by decide⟩ fun {s y rest} hy hs => ?_)
    simp only [List.cons_append, List.append_assoc, List.nil_append] at hs
    have hread := (rereads_condition htest (.keyword .repeatBody) (hs.bump (by decide))).2
    have hfault := hw TokenKind.blockEnd (by decide) rfl (by decide)
      (sees_expect .loop hread trivial).2
    rw [(Prod.mk.inj ((statement_of_until _ _ hs.current_kind).trans (loop_result ..))).2]
    exact (hfault.expect .loop trivial).tick
  · obtain ⟨rfl, st, hst, hspelling⟩ := hopened.endLoop hclose
    have hloop := Opened.loop htest (forall_mem_concat hbefore hst)
    rw [Statement.spellings_concat, hspelling, ← List.append_assoc] at hloop
    exact .inr ⟨.loop, _, hP, hloop⟩

end

/-! ## Conditionals -/

/-- What stands between the first block of a conditional and its end. -/
def elseSpelling : Option (List Statement) → List Token
  | none => []
  | some otherwise => .fixed (.keyword .elseBranch) :: Statement.spellings otherwise

section

variable {test : Condition} {whenTrue : List Statement} {otherwise : Option (List Statement)}

theorem exists_cons_of_else (otherwise : Option (List Statement)) (rest : List Token) :
    ∃ z more, elseSpelling otherwise ++ .fixed (.keyword .endIf) :: rest = z :: more ∧
      z.kind ∈ TokenKind.blockEnd := by
  cases otherwise with
  | none => exact ⟨_, rest, rfl, by decide⟩
  | some block => exact ⟨_, _, rfl, by decide⟩

theorem faulted_conditional (start : Location)
    (h : s.thenBlock.state.Faulted P (elseSpelling otherwise ++ .fixed (.keyword .endIf) :: rest))
    (hotherwise : ∀ block ∈ otherwise, ∀ st ∈ block, st.Canonical) :
    (conditional start s).state.Faulted P rest := by
  cases otherwise with
  | none =>
    have h : s.thenBlock.state.Faulted P (.fixed (.keyword .endIf) :: rest) := h
    have helse : s.thenBlock.state.kind ≠ .keyword .elseBranch := by
      rw [h.kind]
      decide
    rw [(Prod.mk.inj (conditional_of_ne_else start helse)).2]
    exact (h.expect .conditional trivial).tick
  | some block =>
    rw [elseSpelling, List.cons_append] at h
    have hend := (h.bump (by decide)).block TokenKind.blockEnd (by decide) (hotherwise block rfl)
      (.keyword _) (by decide)
    rw [(Prod.mk.inj (conditional_of_else start h.kind)).2]
    exact (hend.expect .conditional trivial).tick

theorem faulted_of_thenStart (start : Location)
    (h : s.thenStart.Faulted P
      (Statement.spellings whenTrue ++ (elseSpelling otherwise ++ .fixed (.keyword .endIf) :: rest)))
    (hblock : ∀ st ∈ whenTrue, st.Canonical)
    (hotherwise : ∀ block ∈ otherwise, ∀ st ∈ block, st.Canonical) :
    (conditional start s).state.Faulted P rest := by
  obtain ⟨z, more, hz, hkind⟩ := exists_cons_of_else otherwise rest
  rw [hz] at h
  have hend := h.block TokenKind.blockEnd (by decide) hblock (.of_blockEnd hkind) hkind
  rw [← hz] at hend
  exact faulted_conditional start hend hotherwise

theorem contained_conditional_of_test {w : List Token} (htest : FaultsTest P w)
    (hblock : ∀ st ∈ whenTrue, st.Canonical)
    (hotherwise : ∀ block ∈ otherwise, ∀ st ∈ block, st.Canonical) :
    Contained P (.fixed (.keyword .ifCond) :: (w.map Token.essence ++ .fixed (.keyword .thenBranch) ::
      (Statement.spellings whenTrue ++ (elseSpelling otherwise ++ [.fixed (.keyword .endIf)])))) := by
  refine .of_statement ⟨_, _, rfl, by decide⟩ fun {s y rest} hy hs => ?_
  simp only [List.cons_append, List.append_assoc, List.nil_append] at hs
  have hfault := htest (by decide) (hs.bump (by decide))
  rw [(Prod.mk.inj (statement_of_if _ _ hs.current_kind)).2]
  exact faulted_of_thenStart _ (hfault.expect .conditional trivial) hblock hotherwise

theorem contained_conditional_of_then (hP : Admits P .conditional) (htest : test.Canonical)
    (hblock : ∀ st ∈ whenTrue, st.Canonical)
    (hotherwise : ∀ block ∈ otherwise, ∀ st ∈ block, st.Canonical) :
    Contained P (.fixed (.keyword .ifCond) :: (test.spelling ++
      (Statement.spellings whenTrue ++ (elseSpelling otherwise ++ [.fixed (.keyword .endIf)])))) := by
  refine .of_statement ⟨_, _, rfl, by decide⟩ fun {s y rest} hy hs => ?_
  simp only [List.cons_append, List.append_assoc, List.nil_append] at hs
  obtain ⟨x, behind, hx, hend⟩ := exists_cons_of_else otherwise (y :: rest)
  obtain ⟨z, more, hz, hkind⟩ := exists_cons_behind hblock hend behind
  rw [← hx] at hz
  have hbump := hs.bump (by decide)
  rw [hz] at hbump
  have hread := (rereads_condition htest (ends_of_behindStatement hkind) hbump).2
  have hfault := faulted_expectAny _ hP hread
    ((by decide : ∀ k ∈ behindStatement, k ∉ [TokenKind.keyword .thenBranch]) _ hkind)
    (.inr ((by decide : ∀ k ∈ behindStatement, k ∈ Nonterminal.conditional.syncSet) _ hkind))
  rw [← hz] at hfault
  rw [(Prod.mk.inj (statement_of_if _ _ hs.current_kind)).2]
  exact faulted_of_thenStart _ hfault hblock hotherwise

theorem contained_conditional_of_block {w : List Token} (otherwise : Option (List Statement))
    (htest : test.Canonical)
    (hw : ∀ {z : Token} {more : List Token},
      elseSpelling otherwise ++ [.fixed (.keyword .endIf)] = z :: more → FaultsBlock P z.kind w)
    (hotherwise : ∀ block ∈ otherwise, ∀ st ∈ block, st.Canonical) :
    Contained P (.fixed (.keyword .ifCond) :: (test.spelling ++ .fixed (.keyword .thenBranch) ::
      (w ++ (elseSpelling otherwise ++ [.fixed (.keyword .endIf)])))) := by
  refine .of_statement ⟨_, _, rfl, by decide⟩ fun {s y rest} hy hs => ?_
  obtain ⟨z, more, hz, hkind⟩ := exists_cons_of_else otherwise []
  simp only [hz, List.cons_append, List.append_assoc] at hs
  have hread := (rereads_condition htest (.keyword .thenBranch) (hs.bump (by decide))).2
  -- Whatever comes behind it, the first block is read up to there.
  have hfault := hw hz TokenKind.blockEnd (by decide) rfl hkind
    (sees_expect .conditional hread trivial).2
  rw [← List.cons_append, ← hz, List.append_assoc] at hfault
  rw [(Prod.mk.inj (statement_of_if _ _ hs.current_kind)).2]
  exact faulted_conditional _ hfault hotherwise

theorem altered_conditional_of_block {w : List Token} (htest : test.Canonical) (hw : AlteredBlock P w) :
    AlteredStatement P (.fixed (.keyword .ifCond) :: (test.spelling ++
      .fixed (.keyword .thenBranch) :: (w ++ [.fixed (.keyword .endIf)]))) := by
  rcases hw.faults_or_opened (k := .keyword .endIf) (by decide) with
    hw | ⟨before, n, closers, u, rfl, hbefore, hP, hopened, hclose⟩
  · refine .inl (contained_conditional_of_block none htest (fun h => ?_) fun _ h => ?_)
    · obtain ⟨rfl, -⟩ := List.cons.inj h
      exact hw
    · cases h
  · obtain ⟨rfl, st, hst, hspelling⟩ := hopened.endIf hclose
    have hthen := Opened.thenBlock htest (forall_mem_concat hbefore hst)
    rw [Statement.spellings_concat, hspelling, ← List.append_assoc] at hthen
    exact .inr ⟨.conditional, _, hP, hthen⟩

theorem altered_alternative_of_block {w : List Token} {otherwise : List Statement}
    (htest : test.Canonical) (hw : AlteredBlock P w) (hotherwise : ∀ st ∈ otherwise, st.Canonical) :
    AlteredStatement P (.fixed (.keyword .ifCond) :: (test.spelling ++
      .fixed (.keyword .thenBranch) :: (w ++ (.fixed (.keyword .elseBranch) ::
        (Statement.spellings otherwise ++ [.fixed (.keyword .endIf)]))))) := by
  rcases hw.faults_or_opened (k := .keyword .elseBranch) (by decide) with
    hw | ⟨before, n, closers, u, rfl, hbefore, hP, hopened, hclose⟩
  · refine .inl (contained_conditional_of_block (some otherwise) htest (fun h => ?_)
      fun _ h => ?_)
    · obtain ⟨rfl, -⟩ := List.cons.inj h
      exact hw
    · cases h
      exact hotherwise
  · obtain ⟨rfl, st, hst, hspelling⟩ := hopened.elseBranch hclose hotherwise
    have hthen := Opened.thenBlock htest (forall_mem_concat hbefore hst)
    rw [Statement.spellings_concat, hspelling, ← List.append_assoc] at hthen
    exact .inr ⟨.conditional, _, hP, hthen⟩

theorem altered_alternative_of_otherwise {w : List Token} (htest : test.Canonical)
    (hblock : ∀ st ∈ whenTrue, st.Canonical) (hw : AlteredBlock P w) :
    AlteredStatement P (.fixed (.keyword .ifCond) :: (test.spelling ++
      .fixed (.keyword .thenBranch) :: (Statement.spellings whenTrue ++ .fixed (.keyword .elseBranch) ::
        (w ++ [.fixed (.keyword .endIf)])))) := by
  rcases hw.faults_or_opened (k := .keyword .endIf) (by decide) with
    hw | ⟨before, n, closers, u, rfl, hbefore, hP, hopened, hclose⟩
  · refine .inl (.of_statement ⟨_, _, rfl, by decide⟩ fun {s y rest} hy hs => ?_)
    simp only [List.cons_append, List.append_assoc, List.nil_append] at hs
    have hread := (rereads_guarded (n := .conditional) (x := .fixed (.keyword .elseBranch)) htest hblock
      (fun st hst => rereads_statement (hblock st hst)) (by decide) (hs.bump (by decide))).2.2
    have hfault := hw TokenKind.blockEnd (by decide) rfl (by decide) (hread.bump (by decide))
    rw [(Prod.mk.inj ((statement_of_if _ _ hs.current_kind).trans (conditional_of_else _ hread.kind))).2]
    exact (hfault.expect .conditional trivial).tick
  · obtain ⟨rfl, st, hst, hspelling⟩ := hopened.endIf hclose
    have helse := Opened.elseBlock htest hblock (forall_mem_concat hbefore hst)
    rw [Statement.spellings_concat, hspelling, ← List.append_assoc] at helse
    exact .inr ⟨.conditional, _, hP, helse⟩

end

end

end PalChecker.Parser
