import PalChecker.Proofs.Parser.Advance
import PalChecker.Proofs.Parser.Mirrored

/-!
# Programs are read again

After a group a name is the target of an assignment or begins another group, as the token behind it
tells. There two runs go on alike only if the streams agree on that token too.
-/

namespace PalChecker.Parser

open Grammar (Rule Derives)

/-! ## A second token ahead -/

/-- A group begins here: a name that is no target. -/
def Declares : List Token → Prop
  | [] => False
  | x :: rest => x.kind = .identifier ∧ ∀ z ∈ rest.head?, z.kind ≠ .punct .equals

theorem next_of_upcoming {s : State} {x y : Token} {rest : List Token}
    (h : s.upcoming = x :: y :: rest) : s.cursor.next = y := by
  unfold State.upcoming at h
  unfold Cursor.next
  cases hahead : s.cursor.ahead with
  | nil =>
    rw [hahead] at h
    cases h
  | cons first more =>
    rw [hahead] at h
    cases more with
    | nil => exact (List.cons.inj (List.cons.inj h).2).1
    | cons second more => exact (List.cons.inj (List.cons.inj h).2).1

theorem kind_of_upcoming_singleton {s : State} {x : Token} (h : s.upcoming = [x]) :
    s.kind = .endOfFile := by
  refine Cursor.kind_of_remaining_eq_zero (c := s.cursor) ?_
  have hlength := congrArg List.length h
  rw [State.length_upcoming] at hlength
  exact Nat.succ.inj hlength

theorem atDeclaration_iff (s : State) : AtDeclaration s ↔ Declares s.upcoming := by
  obtain ⟨rest, hrest⟩ := s.exists_upcoming
  rw [hrest]
  cases rest with
  | nil =>
    have hend : s.kind = .endOfFile := kind_of_upcoming_singleton hrest
    have hne : s.kind ≠ .identifier := by
      rw [hend]
      decide
    exact iff_of_false (fun h => hne h.1) fun h => hne h.1
  | cons y rest =>
    unfold AtDeclaration
    rw [next_of_upcoming hrest]
    exact and_congr_right fun _ => ⟨fun hy z hz => Option.some.inj hz ▸ hy, fun h => h y rfl⟩

/-- The next token is the same. After a word of `r` the streams also agree on whether it begins a
group. -/
def lookingOn (r : Rule) : Fork := fun v Y Y' =>
  sharing v Y Y' ∧ (Derives r (v.map Token.kind) → (Declares Y ↔ Declares Y'))

theorem declares_append_iff {x : Token} {v Y Y' : List Token} (h : sharing v Y Y') :
    Declares (x :: (v ++ Y)) ↔ Declares (x :: (v ++ Y')) := by
  obtain ⟨y, X, X', rfl, rfl⟩ := h
  have hhead : (v ++ y :: X).head? = (v ++ y :: X').head? := by cases v <;> rfl
  simp only [Declares, hhead]

theorem lookingOn_of_append {a b r : Rule} {s t : State} {u rest Y Y' : List Token}
    (ha : Advances a s t) (h : ∀ {u v}, Derives a u → Derives b v → Derives r (u ++ v))
    (hs : s.recovering = false) (hpasses : s.Passes u t) (hfork : lookingOn r (u ++ rest) Y Y') :
    lookingOn b rest Y Y' := by
  obtain ⟨w, hw, hderives⟩ := ha.clean hs hpasses.errors
  cases hpasses.unique hw
  refine ⟨hfork.1, fun hrest => hfork.2 ?_⟩
  rw [List.map_append]
  exact h hderives hrest

theorem Mirrors.looksOn {α : Type} {R : α → α → Prop} {s s' t t' : State} {a a' : α} (r : Rule)
    (h : Mirrors parting R s (a, t) s' (a', t')) : Mirrors (lookingOn r) R s (a, t) s' (a', t') :=
  h.of_fork fun hv => Fork.Steady.parting hv.1

/-! ## Declarations -/

theorem Mirrors.atDeclaration {α : Type} {R : α → α → Prop} {s s' : State} {r r' : α × State}
    (hlater : s.Precedes r.2) (hlater' : s'.Precedes r'.2)
    (h : s'.current = s.current → (AtDeclaration s' ↔ AtDeclaration s) →
      Mirrors (lookingOn (.many (.construct .group))) R s r s' r') :
    Mirrors (lookingOn (.many (.construct .group))) R s r s' r' := by
  refine ⟨hlater, hlater', fun hs herrors {v Y Y'} hv hahead hahead' => ?_⟩
  have hcurrent : s'.current = s.current ∧ (AtDeclaration s' ↔ AtDeclaration s) := by
    rw [atDeclaration_iff, atDeclaration_iff, hahead, hahead']
    cases v with
    | cons x v =>
      have hshared : sharing v Y Y' := hv.1
      exact ⟨(State.current_of_upcoming hahead').trans (State.current_of_upcoming hahead).symm,
        (declares_append_iff hshared).symm⟩
    | nil =>
      refine ⟨?_, (hv.2 .none).symm⟩
      obtain ⟨y, X, X', rfl, rfl⟩ := hv.1
      exact (State.current_of_upcoming hahead').trans (State.current_of_upcoming hahead).symm
  exact (h hcurrent.1 hcurrent.2).follows hs herrors hv hahead hahead'

/-- A group is read again, and is one if there is no error. -/
abbrev GroupReadAlike : Reading Declaration := fun s d t =>
  Advances (.construct .group) s t ∧ ReadAlike sharing Declaration.unnumbered declaration s d t

theorem mirrored_type (type : DeclType) {s : State} (h : s.kind = type.kind) :
    ReadAlike parting id declType s (some type) s.bump := by
  intro s'
  refine .consume (h ▸ type.isFixed_kind.ne_endOfFile) (.refl _)
    (later_declaration_rules.run_type s') fun hc => ?_
  have hresult : (declType s').result = (some type, s'.bump) := by
    cases type with
    | real => exact declType_of_real ((kind_eq_of_current hc).trans h)
    | integer => exact declType_of_integer ((kind_eq_of_current hc).trans h)
  rw [hresult]
  exact .pure rfl

theorem alike_declaration {idents idents' : List Ident} {type type' : Option DeclType}
    (location : Location) (t t' : State) (hidents : AlikeBy (List.map Ident.unnumbered) idents idents')
    (htype : type = type') :
    AlikeBy Declaration.unnumbered { stamp := t.stamp location, idents, type }
      { stamp := t'.stamp location, idents := idents', type := type' } := by
  subst htype
  exact congrArg (Declaration.mk ⟨location, 0⟩ · type) hidents

theorem mirrored_declaration_rules :
    DeclarationRules
      (fun s is t => Advances Grammar.identifiers s t ∧
        ReadAlike parting (List.map Ident.unnumbered) identifiers s is t)
      (fun s o t => Advances (.token [.keyword .real, .keyword .integer]) s t ∧
        ReadAlike parting id declType s o t)
      GroupReadAlike
      (ReadAlike (lookingOn (.many (.construct .group))) (List.map Declaration.unnumbered)
        moreDeclarations)
      (ReadAlike (lookingOn (.some (.construct .group))) (List.map Declaration.unnumbered)
        declarations) where
  real h := ⟨advances_declaration_rules.real h, mirrored_type .real h⟩
  integer h := ⟨advances_declaration_rules.integer h, mirrored_type .integer h⟩
  no_type {s} hreal hinteger := by
    refine ⟨advances_declaration_rules.no_type hreal hinteger, fun s' => ?_⟩
    exact .ofFail ((State.Precedes.refl _).dropName.synchronize _ _) (later_declaration_rules.run_type s')
  group {s t u idents type} names typed := by
    refine ⟨names.1.group typed.1, fun s' => ?_⟩
    have hlater := ((names.2 s).later.expect (.keyword .as) .varDecls).trans (typed.2 s).later
    refine .same id hlater.tick (later_declaration_rules.run_group later_identifiers s') fun hc => ?_
    rw [declaration_result, location_eq_of_current hc]
    have hnames := (names.2 s').closed (.keyword .as) .varDecls trivial
    exact (hnames.both (typed.2 _)).narrow.tick fun h => alike_declaration _ _ _ h.1 h.2
  stop {s} h s' := by
    refine .atDeclaration (.refl s) (later_declaration_rules.run_moreGroups later_identifiers s') ?_
    intro _ hat
    rw [moreDeclarations_of_not (mt hat.mp h)]
    exact .pure rfl
  step {s t u first rest} h hfirst hrest s' := by
    have hlater := hfirst.1.later.trans (hrest s).later
    refine .atDeclaration hlater (later_declaration_rules.run_moreGroups later_identifiers s') ?_
    intro _ hat
    rw [moreDeclarations_of (hat.mpr h)]
    have hgroup := (hfirst.2 s').of_fork fun hv : lookingOn (.many (.construct .group)) _ _ _ => hv.1
    exact hgroup.thenForked (hrest _) (fun hs _ _ _ _ => lookingOn_of_append hfirst.1 .more hs)
      AlikeBy.cons
  groups {s t u first rest} hfirst hrest s' := by
    rw [declarations_result]
    have hgroup := (hfirst.2 s').of_fork fun hv : lookingOn (.some (.construct .group)) _ _ _ => hv.1
    exact hgroup.thenForked (hrest _) (fun hs _ _ _ _ => lookingOn_of_append hfirst.1 .sequence hs)
      AlikeBy.cons

theorem mirrored_moreDeclarations (s s' : State) :
    Mirrors (lookingOn (.many (.construct .group))) (AlikeBy (List.map Declaration.unnumbered)) s
      (moreDeclarations s).result s' (moreDeclarations s').result :=
  mirrored_declaration_rules.run_moreGroups (fun s => ⟨advances_identifiers s, mirrored_identifiers s⟩) s s'

theorem mirrored_declarations (s s' : State) :
    Mirrors (lookingOn (.some (.construct .group))) (AlikeBy (List.map Declaration.unnumbered)) s
      (declarations s).result s' (declarations s').result :=
  mirrored_declaration_rules.run (fun s => ⟨advances_identifiers s, mirrored_identifiers s⟩) s s'

/-! ## Programs -/

/-- What a program begins with, up to the last of its groups. -/
def opening : Rule :=
  .sequence (.keyword .program) (.sequence (.token [.identifier])
    (.sequence (.keyword .withDecls) (.some (.construct .group))))

def openingFrom (s : State) : (Option Token × List Declaration) × State :=
  let name := (s.expect (.keyword .program) .program).state.expect .identifier .program
  let groups := declarations (name.state.expect (.keyword .withDecls) .program).state
  ((name.value, groups.value), groups.state)

def bodyFrom (s : State) : List Statement × State :=
  let body := statements [.keyword .endProgram] (s.expect (.keyword .inBody) .program).state
  (body.value, ((body.state.filled body.value).expect (.keyword .endProgram) .program).state.ended)

/-- What is read behind the statements of a program. -/
def endFrom (body : List Statement) (s : State) : State :=
  ((s.filled body).expect (.keyword .endProgram) .program).state.ended

theorem endFrom_of_ne_nil {body : List Statement} (hne : body ≠ []) (s : State) :
    endFrom body s = (s.expect (.keyword .endProgram) .program).state.ended := by
  rw [endFrom, filled_of_ne_nil hne]

/-- The program read from any state, and the state behind it. -/
def programFrom (s : State) : Program × State :=
  let first := openingFrom s
  let body := bodyFrom first.2
  ({ name := first.1.1
     declarations := first.1.2
     statements := body.1
     location := s.location },
    body.2)

theorem programFrom_ofTokens (tokens : List Token) :
    programFrom (.ofTokens tokens) = ((parse tokens).program, (parse tokens).final) := by
  refine parse_rule (fun s ds t => (declarations s).result = (ds, t))
    (fun s ss t => (statements [.keyword .endProgram] s).result = (ss, t))
    (fun s p t => programFrom s = (p, t)) (fun _ => rfl) (fun _ => rfl) ?_ tokens
  intro s t u ds ss name hgroups hbody
  obtain ⟨rfl, rfl⟩ := Prod.mk.inj hgroups
  obtain ⟨rfl, rfl⟩ := Prod.mk.inj hbody
  rfl

theorem Mirrors.filled {s s' t t' : State} {body body' : List Statement}
    (h : Mirrors sharing (AlikeBy Statement.allUnnumbered) s (body, t) s' (body', t')) :
    Mirrors sharing (AlikeBy Statement.allUnnumbered) s (body, t.filled body) s'
      (body', t'.filled body') := by
  cases body with
  | nil =>
    have hfail : Mirrors sharing Eq t ((), t.fail .statement) t' ((), t'.filled body') :=
      .ofFail (.refl _) ((State.Precedes.refl t').filled body')
    exact h.andThen hfail fun h _ => h
  | cons first rest =>
    cases body' with
    | nil => exact h.apart (fun h => by cases h) (.refl t) ((State.Precedes.refl t').fail .statement)
    | cons first' rest' => exact h

theorem Mirrors.ended {α : Type} {R : α → α → Prop} {s s' t t' : State} {a a' : α}
    (h : Mirrors sharing R s (a, t) s' (a', t')) :
    Mirrors sharing R s (a, t.ended) s' (a', t'.ended) := by
  have hended : Mirrors sharing Eq t ((), t.ended) t' ((), t'.ended) := by
    refine .same id (State.Precedes.refl t).ended (State.Precedes.refl t').ended fun hc => ?_
    by_cases hend : t.kind = .endOfFile
    · have hend' : t'.kind = .endOfFile := (kind_eq_of_current hc).trans hend
      simp only [State.ended, if_pos hend, if_pos hend']
      exact .pure rfl
    · refine .ofFail (n := .program) ?_ (State.Precedes.refl t').ended
      simp only [State.ended, if_neg hend]
      exact .refl _
  exact h.andThen hended fun h _ => h

theorem Mirrors.thenLooking {α β γ : Type} {R : α → α → Prop} {Q : β → β → Prop} {P : γ → γ → Prop}
    {s s' t t' w w' : State} {x x' : α} {y y' : β} {z z' : γ} {a b : Rule}
    (hx : Mirrors parting R s (x, t) s' (x', t')) (ha : Advances a s t)
    (hy : Mirrors (lookingOn b) Q t (y, w) t' (y', w')) (h : R x x' → Q y y' → P z z') :
    Mirrors (lookingOn (.sequence a b)) P s (z, w) s' (z', w') :=
  (hx.looksOn _).thenForked hy (fun hs _ _ _ _ => lookingOn_of_append ha .sequence hs) h

theorem mirrored_opening (s s' : State) :
    Mirrors (lookingOn opening)
      (fun x x' => x.1 = x'.1 ∧ AlikeBy (List.map Declaration.unnumbered) x.2 x'.2) s (openingFrom s) s'
      (openingFrom s') := by
  have hprogram := mirrors_expect (k := .keyword .program) .program trivial s s'
  have hname (t t' : State) := mirrors_expectAny [.identifier] .program (by decide) t t'
  have hwith (t t' : State) := mirrors_expect (k := .keyword .withDecls) .program trivial t t'
  have hgroups (t t' : State) := (hwith t t').thenLooking (.expect _ _ t trivial)
    (mirrored_declarations _ _) fun _ h => h
  have hnamed (t t' : State) := (hname t t').thenLooking (.expectAny _ t (by decide) rfl) (hgroups _ _)
    And.intro
  exact hprogram.thenLooking (.expect _ _ s trivial) (hnamed _ _) fun _ h => h

theorem mirrored_body (s s' : State) :
    Mirrors sharing (AlikeBy Statement.allUnnumbered) s (bodyFrom s) s' (bodyFrom s') := by
  have hin := mirrors_expect (k := .keyword .inBody) .program trivial s s'
  have hbody := hin.narrow.andThen (mirrored_statements [.keyword .endProgram] _ _) fun _ h => h
  exact (hbody.filled.closed (.keyword .endProgram) .program trivial).ended

theorem alike_program {name name' : Option Token} {groups groups' : List Declaration}
    {body body' : List Statement} {location location' : Location} (hname : name = name')
    (hgroups : AlikeBy (List.map Declaration.unnumbered) groups groups')
    (hbody : AlikeBy Statement.allUnnumbered body body') (hlocation : location' = location) :
    AlikeBy Program.unnumbered ⟨name, groups, body, location⟩ ⟨name', groups', body', location'⟩ := by
  subst hname hlocation
  unfold AlikeBy at hgroups hbody ⊢
  simp only [Program.unnumbered, hgroups, hbody]

/-- A program without an error is read again, as far as another stream goes like it. -/
theorem mirrored_program (s s' : State) :
    Mirrors (lookingOn opening) (AlikeBy Program.unnumbered) s (programFrom s) s' (programFrom s') := by
  have hopening := mirrored_opening s s'
  have hbody := mirrored_body (openingFrom s).2 (openingFrom s').2
  refine .same And.left (hopening.later.trans hbody.later) (hopening.later'.trans hbody.later')
    fun hc => ?_
  exact hopening.thenForked hbody (fun _ _ _ _ _ _ hv => Fork.Steady.drop hv.1) fun h h' =>
    alike_program h.1 h.2 h' (location_eq_of_current hc)

end PalChecker.Parser
