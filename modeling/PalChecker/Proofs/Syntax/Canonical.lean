import PalChecker.Proofs.Syntax.Spelling

/-!
# Canonical trees

The trees of programs without a syntax error: nothing is missing, and operators nest as precedence and
association to the left have it. Trees are compared without their stamps.
-/

namespace PalChecker

/-! ## Shapes -/

namespace Expr

def IsBinary : Expr → Prop
  | binary .. => True
  | value .. | unary .. | group .. | error _ => False

def IsSum : Expr → Prop
  | binary _ _ op _ => op.IsAdditive
  | value .. | unary .. | group .. | error _ => False

/-- What a sign can stand before. -/
def IsOperand : Expr → Prop
  | value .. | group .. => True
  | unary .. | binary .. | error _ => False

theorem not_isSum_of_not_isBinary {e : Expr} (h : ¬e.IsBinary) : ¬e.IsSum := by
  cases e with
  | binary => exact absurd trivial h
  | value | unary | group | error => exact not_false

theorem not_isBinary_of_isOperand {e : Expr} (h : e.IsOperand) : ¬e.IsBinary := by
  cases e with
  | value | group => exact not_false
  | unary | binary | error => exact absurd h not_false

/-- The operands of each operator bind tighter than it, except a left one that binds as tight. -/
def Canonical : Expr → Prop
  | value _ token => token.kind ∈ TokenKind.value
  | unary _ _ operand => operand.IsOperand ∧ operand.Canonical
  | binary _ left op right =>
    left.Canonical ∧ right.Canonical ∧
      (if op.IsAdditive then ¬right.IsSum else ¬left.IsSum ∧ ¬right.IsBinary)
  | group _ inner => inner.Canonical
  | error _ => False

end Expr

def Ident.IsName (i : Ident) : Prop := i.token.kind = .identifier

theorem Ident.IsName.mem_value {i : Ident} (h : i.IsName) : i.token.kind ∈ TokenKind.value := by
  rw [show i.token.kind = .identifier from h]
  decide

theorem Ident.IsName.essence {i : Ident} (h : i.IsName) : i.token.essence = i.token :=
  Token.essence_of_value h.mem_value

def Condition.Canonical (c : Condition) : Prop :=
  c.left.Canonical ∧ c.op.isSome ∧ c.right.Canonical

inductive Statement.Canonical : Statement → Prop where
  | assignment {stamp : Stamp} {target : Ident} {value : Expr} :
    target.IsName → value.Canonical → Canonical (.assignment stamp target value)
  | loop {stamp : Stamp} {test : Condition} {body : List Statement} :
    test.Canonical → (∀ s ∈ body, Canonical s) → Canonical (.loop stamp test body)
  | conditional {stamp : Stamp} {test : Condition} {whenTrue : List Statement} :
    test.Canonical → (∀ s ∈ whenTrue, Canonical s) →
      Canonical (.conditional stamp test whenTrue none)
  | alternative {stamp : Stamp} {test : Condition} {whenTrue otherwise : List Statement} :
    test.Canonical → (∀ s ∈ whenTrue, Canonical s) → (∀ s ∈ otherwise, Canonical s) →
      Canonical (.conditional stamp test whenTrue (some otherwise))
  | input {stamp : Stamp} {targets : List Ident} :
    targets ≠ [] → (∀ i ∈ targets, i.IsName) → Canonical (.input stamp targets)
  | output {stamp : Stamp} {values : List Expr} :
    values ≠ [] → (∀ e ∈ values, e.Canonical) → Canonical (.output stamp values)

def Declaration.Canonical (d : Declaration) : Prop :=
  d.idents ≠ [] ∧ (∀ i ∈ d.idents, i.IsName) ∧ d.type.isSome

structure Program.Canonical (p : Program) : Prop where
  name : ∃ token, p.name = some token ∧ token.kind = .identifier
  declarations_ne_nil : p.declarations ≠ []
  declarations : ∀ d ∈ p.declarations, d.Canonical
  statements_ne_nil : p.statements ≠ []
  statements : ∀ s ∈ p.statements, s.Canonical

/-! ## Spelled tokens -/

/-- `u` spells `a`, which is as it should be. -/
def Spelled {α : Type} (good : α → Prop) (spelling : α → List Token) (a : α) (u : List Token) : Prop :=
  good a ∧ spelling a = u.map Token.essence

/-- It can stand in a spelling: a name, a number or a fixed terminal. -/
def Token.IsPlain (t : Token) : Prop :=
  t.kind ∈ TokenKind.value ∨ ∃ k : TokenKind, k.IsFixed ∧ t = .fixed k

theorem Token.IsPlain.essence {t : Token} (h : t.IsPlain) : t.essence = t := by
  rcases h with h | ⟨k, hk, rfl⟩
  · exact essence_of_value h
  · exact essence_of_fixed hk rfl

theorem Token.IsPlain.ne_endOfFile {t : Token} (h : t.IsPlain) : t.kind ≠ .endOfFile := by
  rcases h with h | ⟨k, hk, rfl⟩
  · rintro heof
    rw [heof] at h
    exact absurd h (by decide)
  · exact hk.ne_endOfFile

theorem Token.isPlain_fixed {k : TokenKind} (hk : k.IsFixed) : (fixed k).IsPlain :=
  Or.inr ⟨k, hk, rfl⟩

@[simp] theorem Token.isPlain_keyword (k : Keyword) : (fixed (.keyword k)).IsPlain :=
  isPlain_fixed trivial

@[simp] theorem Token.isPlain_punct (p : Punct) : (fixed (.punct p)).IsPlain := isPlain_fixed trivial

theorem Ident.IsName.isPlain {i : Ident} (h : i.IsName) : i.token.IsPlain := Or.inl h.mem_value

theorem isPlain_afterCommas {parts : List (List Token)} (h : ∀ part ∈ parts, ∀ t ∈ part, t.IsPlain) :
    ∀ t ∈ afterCommas parts, t.IsPlain := by
  intro t ht
  obtain ⟨part, hpart, ht⟩ := List.mem_flatMap.mp ht
  rcases List.mem_cons.mp ht with rfl | ht
  · exact Token.isPlain_punct .comma
  · exact h part hpart t ht

theorem isPlain_commaSeparated {parts : List (List Token)}
    (h : ∀ part ∈ parts, ∀ t ∈ part, t.IsPlain) : ∀ t ∈ commaSeparated parts, t.IsPlain := by
  cases parts with
  | nil => exact fun t ht => absurd ht List.not_mem_nil
  | cons first rest =>
    obtain ⟨hfirst, hrest⟩ := List.forall_mem_cons.mp h
    exact List.forall_mem_append.mpr ⟨hfirst, isPlain_afterCommas hrest⟩

theorem Ident.isPlain_spellings {idents : List Ident} (h : ∀ i ∈ idents, i.IsName) :
    ∀ t ∈ Ident.spellings idents, t.IsPlain := by
  refine isPlain_commaSeparated (List.forall_mem_map.mpr fun i hi => ?_)
  exact List.forall_mem_singleton.mpr (h i hi).isPlain

theorem Expr.isPlain_spelling {e : Expr} (h : e.Canonical) : ∀ t ∈ e.spelling, t.IsPlain := by
  induction e with
  | value _ token => exact List.forall_mem_singleton.mpr (Or.inl h)
  | unary _ sign operand ih =>
    exact List.forall_mem_cons.mpr ⟨Token.isPlain_fixed sign.isFixed_kind, ih h.2⟩
  | binary _ left op right ihleft ihright =>
    obtain ⟨hleft, hright, -⟩ := h
    exact List.forall_mem_append.mpr ⟨ihleft hleft,
      List.forall_mem_cons.mpr ⟨Token.isPlain_fixed op.isFixed_kind, ihright hright⟩⟩
  | group _ inner ih =>
    simp only [spelling, List.forall_mem_append, List.forall_mem_cons, List.not_mem_nil, false_implies,
      implies_true, Token.isPlain_punct, true_and, and_true]
    exact ih h
  | error => exact absurd h not_false

theorem Condition.isPlain_spelling {c : Condition} (h : c.Canonical) :
    ∀ t ∈ c.spelling, t.IsPlain := by
  obtain ⟨hleft, -, hright⟩ := h
  unfold spelling
  refine List.forall_mem_append.mpr ⟨List.forall_mem_append.mpr ⟨Expr.isPlain_spelling hleft, ?_⟩,
    Expr.isPlain_spelling hright⟩
  exact List.forall_mem_map.mpr fun op _ => Token.isPlain_fixed op.isFixed_kind

theorem Statement.isPlain_spellings {body : List Statement}
    (h : ∀ s ∈ body, ∀ t ∈ s.spelling, t.IsPlain) : ∀ t ∈ spellings body, t.IsPlain := by
  induction body with
  | nil => exact fun t ht => absurd ht List.not_mem_nil
  | cons first rest ih =>
    obtain ⟨hfirst, hrest⟩ := List.forall_mem_cons.mp h
    exact List.forall_mem_append.mpr ⟨hfirst, ih hrest⟩

theorem Statement.isPlain_spelling {s : Statement} (h : s.Canonical) :
    ∀ t ∈ s.spelling, t.IsPlain := by
  induction h with
  | assignment htarget hvalue =>
    exact List.forall_mem_cons.mpr ⟨htarget.isPlain,
      List.forall_mem_cons.mpr ⟨Token.isPlain_punct .equals, Expr.isPlain_spelling hvalue⟩⟩
  | loop htest _ ih =>
    simp only [spelling, List.forall_mem_append, List.forall_mem_cons, List.not_mem_nil, false_implies,
      implies_true, Token.isPlain_keyword, true_and, and_true]
    exact ⟨Condition.isPlain_spelling htest, isPlain_spellings ih⟩
  | conditional htest _ ih =>
    simp only [spelling, List.forall_mem_append, List.forall_mem_cons, List.not_mem_nil, false_implies,
      implies_true, Token.isPlain_keyword, true_and, and_true]
    exact ⟨Condition.isPlain_spelling htest, isPlain_spellings ih⟩
  | alternative htest _ _ ih ih' =>
    simp only [spelling, List.forall_mem_append, List.forall_mem_cons, List.not_mem_nil, false_implies,
      implies_true, Token.isPlain_keyword, true_and, and_true, and_assoc]
    exact ⟨Condition.isPlain_spelling htest, isPlain_spellings ih, isPlain_spellings ih'⟩
  | input _ hnames =>
    exact List.forall_mem_cons.mpr ⟨Token.isPlain_keyword .input, Ident.isPlain_spellings hnames⟩
  | output _ hvalues =>
    refine List.forall_mem_cons.mpr ⟨Token.isPlain_keyword .output, ?_⟩
    exact isPlain_commaSeparated (List.forall_mem_map.mpr fun e he =>
      Expr.isPlain_spelling (hvalues e he))

theorem Declaration.isPlain_spelling {d : Declaration} (h : d.Canonical) :
    ∀ t ∈ d.spelling, t.IsPlain := by
  obtain ⟨-, hnames, -⟩ := h
  refine List.forall_mem_append.mpr ⟨Ident.isPlain_spellings hnames,
    List.forall_mem_cons.mpr ⟨Token.isPlain_keyword .as, ?_⟩⟩
  exact List.forall_mem_map.mpr fun type _ => Token.isPlain_fixed type.isFixed_kind

theorem Program.isPlain_spelling {p : Program} (h : p.Canonical) : ∀ t ∈ p.spelling, t.IsPlain := by
  obtain ⟨⟨name, hname, hkind⟩, -, hgroups, -, hbody⟩ := h
  have hplain : name.IsPlain := Or.inl (hkind ▸ by decide)
  have hds : ∀ t ∈ p.declarations.flatMap Declaration.spelling, t.IsPlain := by
    intro t ht
    obtain ⟨d, hd, ht⟩ := List.mem_flatMap.mp ht
    exact Declaration.isPlain_spelling (hgroups d hd) t ht
  have hss := Statement.isPlain_spellings fun s hs => Statement.isPlain_spelling (hbody s hs)
  simp only [spelling, hname, Option.toList_some, List.forall_mem_append, List.forall_mem_cons,
    List.not_mem_nil, false_implies, implies_true, Token.isPlain_keyword, true_and, and_true, and_assoc]
  exact ⟨hplain, hds, hss⟩

/-! ## Without stamps -/

def Stamp.blank : Stamp := ⟨.start, 0⟩

def Ident.unstamped (i : Ident) : Ident := { i with stamp := .blank }

def Expr.unstamped : Expr → Expr
  | value _ token => value .blank token
  | unary _ sign operand => unary .blank sign operand.unstamped
  | binary _ left op right => binary .blank left.unstamped op right.unstamped
  | group _ inner => group .blank inner.unstamped
  | error _ => error .blank

def Condition.unstamped (c : Condition) : Condition :=
  { stamp := .blank, left := c.left.unstamped, op := c.op, right := c.right.unstamped }

namespace Statement

mutual

def unstamped : Statement → Statement
  | assignment _ target value => assignment .blank target.unstamped value.unstamped
  | loop _ test body => loop .blank test.unstamped (allUnstamped body)
  | conditional _ test whenTrue none =>
    conditional .blank test.unstamped (allUnstamped whenTrue) none
  | conditional _ test whenTrue (some otherwise) =>
    conditional .blank test.unstamped (allUnstamped whenTrue) (some (allUnstamped otherwise))
  | input _ targets => input .blank (targets.map Ident.unstamped)
  | output _ values => output .blank (values.map Expr.unstamped)

def allUnstamped : List Statement → List Statement
  | [] => []
  | first :: rest => first.unstamped :: allUnstamped rest

end

theorem allUnstamped_eq_nil_iff {body : List Statement} : allUnstamped body = [] ↔ body = [] := by
  cases body <;> simp [allUnstamped]

end Statement

def Declaration.unstamped (d : Declaration) : Declaration :=
  { stamp := .blank, idents := d.idents.map Ident.unstamped, type := d.type }

/-- A tree without the places and the discovery numbers of its nodes. -/
def Program.unstamped (p : Program) : Program where
  name := p.name
  declarations := p.declarations.map Declaration.unstamped
  statements := Statement.allUnstamped p.statements
  location := .start

end PalChecker
