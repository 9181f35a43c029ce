import PalChecker.Proofs.Parser.AlteredStatements

/-!
# Each section of a program with a terminal left out

A group that lacks its type takes the next name for a misspelt one, and is read up to the next group that
can still be told. Anywhere else in a program reading goes on where a terminal is missed.
-/

namespace PalChecker.Parser

open Grammar (Construct)

section

variable {P : List Diagnostic → Prop} {s : State} {x : Token} {rest : List Token}

/-! ## Groups -/

theorem State.Faulted.discard (h : s.Faulted P (x :: rest)) (hx : x.kind ≠ .endOfFile) :
    s.discard.Faulted P rest := by
  refine ⟨(h.bump hx).stream, ?_⟩
  rw [State.errors_discard]
  exact h.reported

theorem State.Faulted.synchronize {n : Nonterminal} {extra : List TokenKind} {u : List Token}
    (h : s.Faulted P (u ++ x :: rest)) (hu : ∀ t ∈ u, ¬Cursor.Halts (n.syncSet ++ extra) t)
    (hx : Cursor.Halts (n.syncSet ++ extra) x) : (s.synchronize n extra).Faulted P (x :: rest) where
  stream := by
    obtain ⟨v, behind, hupcoming, rfl, hbehind⟩ := List.map_eq_append_iff.mp h.stream
    obtain ⟨y, more, rfl, rfl, rfl⟩ := List.map_eq_cons_iff.mp hbehind
    -- The essence of a token has its kind, and nothing else decides whether it halts.
    have halts_iff (t : Token) :
        Cursor.Halts (n.syncSet ++ extra) t.essence ↔ Cursor.Halts (n.syncSet ++ extra) t := by
      unfold Cursor.Halts
      rw [Token.essence_kind]
    have hv : ∀ t ∈ v, ¬Cursor.Halts (n.syncSet ++ extra) t := fun t ht h =>
      hu t.essence (List.mem_map_of_mem ht) ((halts_iff t).mpr h)
    rw [State.upcoming_synchronize_of_append hupcoming hv ((halts_iff y).mp hx), List.map_cons]
  reported := by
    rw [State.errors_synchronize]
    exact h.reported

theorem State.Faulted.declType {type : DeclType} (h : s.Faulted P (.fixed type.kind :: rest)) :
    (Parser.declType s).state.Faulted P rest := by
  have hresult : (Parser.declType s).result = (some type, s.bump) := by
    cases type with
    | integer => exact declType_of_integer h.kind
    | real => exact declType_of_real h.kind
  rw [(Prod.mk.inj hresult).2]
  exact h.bump type.isFixed_kind.ne_endOfFile

/-- It begins with a name that is no target. -/
def StartsGroup (w : List Token) : Prop :=
  ∃ x y u, w = x :: y :: u ∧ x.kind = .identifier ∧ y.kind ≠ .punct .equals

/-- Of what follows the group, and of itself, groups are left behind one error. -/
def FaultsGroup (P : List Diagnostic → Prop) (w : List Token) : Prop :=
  StartsGroup w ∧
    ∀ {s : State} {after : List Declaration} {rest : List Token}, (∀ d ∈ after, d.Canonical) →
      s.Sees (w ++ (after.flatMap Declaration.spelling ++ .fixed (.keyword .inBody) :: rest)) →
        ∃ left : List Declaration, (∀ d ∈ left, d.Canonical) ∧
          (declaration s).state.Faulted P
            (left.flatMap Declaration.spelling ++ .fixed (.keyword .inBody) :: rest)

theorem startsGroup_idents {idents : List Ident} {y : Token} (hne : idents ≠ [])
    (hnames : ∀ i ∈ idents, i.IsName) (hy : y.kind ≠ .punct .equals) :
    StartsGroup (Ident.spellings idents ++ [y]) := by
  obtain ⟨i, more, rfl⟩ := List.exists_cons_of_ne_nil hne
  obtain ⟨z, behind, hz, hkind⟩ := afterCommas_append (more.map ([·.token])) y []
  refine ⟨i.token, z, behind, ?_, (List.forall_mem_cons.mp hnames).1, ?_⟩
  · rw [Ident.spellings, List.map_cons, commaSeparated, List.append_assoc, hz]
    rfl
  · rcases hkind with rfl | hcomma
    · exact hy
    · rw [hcomma]
      decide

theorem faultsGroup_of_as {idents : List Ident} {type : DeclType} (hP : Admits P .varDecls)
    (hne : idents ≠ []) (hnames : ∀ i ∈ idents, i.IsName) :
    FaultsGroup P (Ident.spellings idents ++ [.fixed type.kind]) := by
  refine ⟨startsGroup_idents hne hnames (by cases type <;> decide), fun {s after rest} hafter hs => ?_⟩
  simp only [List.append_assoc, List.cons_append, List.nil_append] at hs
  have hread := (rereads_identifiers hne hnames (by cases type <;> decide) hs).2
  have hfault := faulted_expectAny [.keyword .as] hP hread (by cases type <;> decide)
    (.inr (by cases type <;> decide))
  refine ⟨after, hafter, ?_⟩
  rw [(Prod.mk.inj (declaration_result s)).2]
  exact hfault.declType.tick

theorem exists_cons_of_groups {groups : List Declaration} (hgroups : ∀ d ∈ groups, d.Canonical)
    (rest : List Token) :
    ∃ y more, groups.flatMap Declaration.spelling ++ .fixed (.keyword .inBody) :: rest = y :: more ∧
      Cursor.Halts Nonterminal.type.syncSet y := by
  cases groups with
  | nil => exact ⟨_, rest, rfl, .inr (by decide)⟩
  | cons d groups =>
    obtain ⟨x, y, more, hspelling, hx, -⟩ :=
      exists_cons_cons_of_canonical (List.forall_mem_cons.mp hgroups).1
    refine ⟨x, _, by rw [List.flatMap_cons, hspelling]; rfl, .inr ?_⟩
    rw [hx]
    decide

theorem spelling_cons (stamp : Stamp) (i : Ident) (more : List Ident) (type : DeclType) :
    (Declaration.mk stamp (i :: more) (some type)).spelling =
      i.token :: (afterCommas (more.map ([·.token])) ++ [.fixed (.keyword .as), .fixed type.kind]) := rfl

theorem exists_left_behind {more : List Ident} {type : DeclType} {after : List Declaration}
    (hmore : ∀ i ∈ more, i.IsName) (hafter : ∀ d ∈ after, d.Canonical)
    (h : s.Faulted P (afterCommas (more.map ([·.token])) ++ .fixed (.keyword .as) :: .fixed type.kind ::
      (after.flatMap Declaration.spelling ++ .fixed (.keyword .inBody) :: rest))) :
    ∃ left : List Declaration, (∀ d ∈ left, d.Canonical) ∧
      (s.synchronize .type []).Faulted P
        (left.flatMap Declaration.spelling ++ .fixed (.keyword .inBody) :: rest) := by
  cases more with
  | nil =>
    -- `AS` and the type behind it are dropped, up to the next group.
    obtain ⟨y, behind, hy, hhalts⟩ := exists_cons_of_groups hafter rest
    have h : s.Faulted P ([.fixed (.keyword .as), .fixed type.kind] ++
      (after.flatMap Declaration.spelling ++ .fixed (.keyword .inBody) :: rest)) := h
    rw [hy] at h
    refine ⟨after, hafter, hy ▸ h.synchronize ?_ hhalts⟩
    simp only [List.forall_mem_cons, List.not_mem_nil, false_implies, implies_true, and_true]
    exact ⟨by decide, by cases type <;> decide⟩
  | cons j more =>
    -- Only the comma is dropped, and the names behind it make up a group.
    obtain ⟨hj, hnames⟩ := List.forall_mem_cons.mp hmore
    have hd : Declaration.Canonical ⟨.blank, j :: more, some type⟩ := ⟨List.cons_ne_nil _ _, hmore, rfl⟩
    refine ⟨_ :: after, List.forall_mem_cons.mpr ⟨hd, hafter⟩, ?_⟩
    rw [List.map_cons, afterCommas_cons] at h
    simp only [List.flatMap_cons, spelling_cons, List.cons_append, List.append_assoc, List.nil_append]
      at h ⊢
    refine h.synchronize (u := [.fixed (.punct .comma)]) ?_ (.inr ?_)
    · exact List.forall_mem_singleton.mpr (by decide)
    · rw [show j.token.kind = .identifier from hj]
      decide

/-- Without its type a group ends where another name or the end of the section stands. -/
theorem exists_untyped {after : List Declaration} (hP : Admits P .type) (hafter : ∀ d ∈ after, d.Canonical)
    (h : s.Sees (after.flatMap Declaration.spelling ++ .fixed (.keyword .inBody) :: rest)) :
    ∃ left : List Declaration, (∀ d ∈ left, d.Canonical) ∧
      (declType s).state.Faulted P
        (left.flatMap Declaration.spelling ++ .fixed (.keyword .inBody) :: rest) := by
  have hfault := faulted_fail (n := .type) hP h
  cases after with
  | nil =>
    -- `IN` is ahead, so there is no name to drop.
    have hkind : s.kind = .keyword .inBody := h.kind
    have hin : (s.fail .type).kind = .keyword .inBody := hfault.kind
    have hdrop : (s.fail .type).dropName = s.fail .type := if_neg (by rw [hin]; decide)
    refine ⟨[], fun _ h => absurd h List.not_mem_nil, ?_⟩
    rw [(Prod.mk.inj (declType_of_ne (by rw [hkind]; decide) (by rw [hkind]; decide))).2, State.untyped,
      hdrop]
    exact hfault.synchronize (u := []) (fun _ h => absurd h List.not_mem_nil) (.inr (by decide))
  | cons d after =>
    obtain ⟨⟨hne, hnames, htype⟩, hmoreGroups⟩ := List.forall_mem_cons.mp hafter
    obtain ⟨stamp, idents, type⟩ := d
    obtain ⟨i, more, rfl⟩ := List.exists_cons_of_ne_nil hne
    obtain ⟨type, rfl⟩ := Option.isSome_iff_exists.mp htype
    obtain ⟨hi, hmore⟩ := List.forall_mem_cons.mp hnames
    simp only [List.flatMap_cons, spelling_cons, List.cons_append, List.append_assoc, List.nil_append]
      at h hfault
    -- The next group starts here, and its first name is taken for the type.
    have hkind : s.kind = .identifier := h.kind.trans hi
    have hname : (s.fail .type).kind = .identifier := hfault.kind.trans hi
    have hdrop : (s.fail .type).dropName = (s.fail .type).discard := if_pos hname
    have hne : i.token.kind ≠ .endOfFile := by
      rw [show i.token.kind = .identifier from hi]
      decide
    rw [(Prod.mk.inj (declType_of_ne (by rw [hkind]; decide) (by rw [hkind]; decide))).2, State.untyped,
      hdrop]
    exact exists_left_behind hmore hmoreGroups (hfault.discard hne)

theorem faultsGroup_of_type {idents : List Ident} (hP : Admits P .type) (hne : idents ≠ [])
    (hnames : ∀ i ∈ idents, i.IsName) :
    FaultsGroup P (Ident.spellings idents ++ [.fixed (.keyword .as)]) := by
  refine ⟨startsGroup_idents hne hnames (by decide), fun {s after rest} hafter hs => ?_⟩
  simp only [List.append_assoc, List.cons_append, List.nil_append] at hs
  have hread := (rereads_identifiers hne hnames (by decide) hs).2
  obtain ⟨left, hleft, hfault⟩ := exists_untyped hP hafter (sees_expect .varDecls hread trivial).2
  refine ⟨left, hleft, ?_⟩
  rw [(Prod.mk.inj (declaration_result s)).2]
  exact hfault.tick

theorem faulted_moreDeclarations {w : List Token} {before after : List Declaration} (hw : FaultsGroup P w)
    (hbefore : ∀ d ∈ before, d.Canonical) (hafter : ∀ d ∈ after, d.Canonical)
    (h : s.Sees (before.flatMap Declaration.spelling ++
      (w ++ (after.flatMap Declaration.spelling ++ .fixed (.keyword .inBody) :: rest)))) :
    (moreDeclarations s).state.Faulted P (.fixed (.keyword .inBody) :: rest) := by
  induction before generalizing s with
  | nil =>
    have h : s.Sees (w ++ _) := h
    obtain ⟨⟨x, y, u, rfl, hx, hy⟩, hfaults⟩ := hw
    -- The altered group still begins like one.
    have hat : AtDeclaration s := by
      refine ⟨h.kind.trans hx, ?_⟩
      rw [h.next_kind (hx ▸ by decide)]
      exact hy
    obtain ⟨left, hleft, hfault⟩ := hfaults hafter h
    rw [(Prod.mk.inj (moreDeclarations_of hat)).2]
    exact hfault.moreDeclarations hleft (by decide)
  | cons d before ih =>
    obtain ⟨hd, hmore⟩ := List.forall_mem_cons.mp hbefore
    rw [List.flatMap_cons, List.append_assoc] at h
    have hread := (rereads_declaration hd h).2
    rw [(Prod.mk.inj (moreDeclarations_of (atDeclaration_of_sees hd h))).2]
    exact ih hmore hread

/-! ## Sections -/

/-- What is read from the first statement on. -/
def blockFrom (s : State) : State :=
  let body := statements [.keyword .endProgram] s
  endFrom body.value body.state

def groupsFrom (s : State) : State := (bodyFrom (declarations s).state).2

def withFrom (s : State) : State := groupsFrom (s.expect (.keyword .withDecls) .program).state

def nameFrom (s : State) : State := withFrom (s.expect .identifier .program).state

theorem State.Faulted.ended (h : s.Faulted P (x :: rest)) (hx : x.kind = .endOfFile) :
    s.ended.Faulted P (x :: rest) := by
  rw [State.ended, if_pos (h.kind.trans hx)]
  exact h

theorem faulted_endFrom {body : List Statement} (hne : body ≠ []) (hx : x.kind = .endOfFile)
    (h : s.Faulted P (.fixed (.keyword .endProgram) :: x :: rest)) :
    (endFrom body s).Faulted P (x :: rest) := by
  rw [endFrom_of_ne_nil hne]
  exact (h.expect .program trivial).ended hx

theorem startsStatement_of_block {body : List Statement} (hne : body ≠ [])
    (hbody : ∀ st ∈ body, st.Canonical) : StartsStatement (Statement.spellings body) := by
  obtain ⟨first, body, rfl⟩ := List.exists_cons_of_ne_nil hne
  exact (startsStatement_of_canonical (List.forall_mem_cons.mp hbody).1).append _

section

variable {groups : List Declaration} {body : List Statement} (hx : x.kind = .endOfFile)

include hx

theorem State.Faulted.blockFrom (h : s.Faulted P
      (Statement.spellings body ++ .fixed (.keyword .endProgram) :: x :: rest))
    (hne : body ≠ []) (hbody : ∀ st ∈ body, st.Canonical) :
    (Parser.blockFrom s).Faulted P (x :: rest) := by
  have hstart : s.kind ∈ TokenKind.statementStart := by
    obtain ⟨y, u, hspelling, hy⟩ := startsStatement_of_block hne hbody
    rw [hspelling] at h
    exact h.kind ▸ hy
  refine faulted_endFrom (statements_value_ne_nil (by decide) hstart) hx ?_
  exact h.block _ (by decide) hbody (.keyword _) (by decide)

theorem State.Faulted.bodyFrom (h : s.Faulted P (.fixed (.keyword .inBody) ::
      (Statement.spellings body ++ .fixed (.keyword .endProgram) :: x :: rest)))
    (hne : body ≠ []) (hbody : ∀ st ∈ body, st.Canonical) :
    (Parser.bodyFrom s).2.Faulted P (x :: rest) :=
  (h.expect .program trivial).blockFrom hx hne hbody

theorem State.Faulted.groupsFrom (h : s.Faulted P (groups.flatMap Declaration.spelling ++
      .fixed (.keyword .inBody) ::
        (Statement.spellings body ++ .fixed (.keyword .endProgram) :: x :: rest)))
    (hgroups_ne : groups ≠ []) (hgroups : ∀ d ∈ groups, d.Canonical) (hne : body ≠ [])
    (hbody : ∀ st ∈ body, st.Canonical) : (Parser.groupsFrom s).Faulted P (x :: rest) :=
  (h.declarations hgroups_ne hgroups (by decide)).bodyFrom hx hne hbody

theorem State.Faulted.withFrom (h : s.Faulted P (.fixed (.keyword .withDecls) ::
      (groups.flatMap Declaration.spelling ++ .fixed (.keyword .inBody) ::
        (Statement.spellings body ++ .fixed (.keyword .endProgram) :: x :: rest))))
    (hgroups_ne : groups ≠ []) (hgroups : ∀ d ∈ groups, d.Canonical) (hne : body ≠ [])
    (hbody : ∀ st ∈ body, st.Canonical) : (Parser.withFrom s).Faulted P (x :: rest) :=
  (h.expect .program trivial).groupsFrom hx hgroups_ne hgroups hne hbody

theorem State.Faulted.nameFrom {name : Token} (hname : name.kind = .identifier)
    (h : s.Faulted P (name :: .fixed (.keyword .withDecls) ::
      (groups.flatMap Declaration.spelling ++ .fixed (.keyword .inBody) ::
        (Statement.spellings body ++ .fixed (.keyword .endProgram) :: x :: rest))))
    (hgroups_ne : groups ≠ []) (hgroups : ∀ d ∈ groups, d.Canonical) (hne : body ≠ [])
    (hbody : ∀ st ∈ body, st.Canonical) : (Parser.nameFrom s).Faulted P (x :: rest) :=
  (h.expectAny .program (List.mem_singleton.mpr hname) (by decide)).withFrom hx hgroups_ne hgroups hne
    hbody

end

end

end PalChecker.Parser
