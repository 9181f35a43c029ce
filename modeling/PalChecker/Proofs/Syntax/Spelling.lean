import PalChecker.Syntax.Nonterminal
import PalChecker.Syntax.Tree

/-!
# The tokens of a tree

A tree is spelled with the tokens it holds and with the fixed terminals of its constructs. Names and
numbers are spelled by themselves; a fixed terminal is spelled by its kind alone, so it has its own text
and stands at no particular place.
-/

namespace PalChecker

/-! ## Fixed terminals -/

namespace TokenKind

/-- What stands for a value: its token is more than its kind. -/
def value : List TokenKind := [identifier, integerLiteral, realLiteral]

theorem mem_operandStart_iff {k : TokenKind} : k ∈ operandStart ↔ k ∈ value ∨ k = punct .lparen := by
  simp only [operandStart, value, List.mem_cons, List.not_mem_nil, or_false, or_assoc]

/-- A keyword or punctuation: one exact terminal. -/
def IsFixed : TokenKind → Prop
  | keyword _ | punct _ => True
  | identifier | integerLiteral | realLiteral | booleanLiteral | stringLiteral | invalid
  | endOfFile => False

theorem IsFixed.not_mem_value {k : TokenKind} (h : k.IsFixed) : k ∉ value := by
  intro hvalue
  simp only [value, List.mem_cons, List.not_mem_nil, or_false] at hvalue
  rcases hvalue with rfl | rfl | rfl <;> exact h

theorem IsFixed.ne_endOfFile {k : TokenKind} (h : k.IsFixed) : k ≠ .endOfFile := by
  rintro rfl
  exact h

def text : TokenKind → String
  | keyword k => k.text
  | punct p => p.text
  | _ => ""

end TokenKind

namespace Token

def fixed (k : TokenKind) : Token := ⟨k, k.text, .start⟩

/-- A token without what no tree keeps of it. -/
def essence (t : Token) : Token := if t.kind ∈ TokenKind.value then t else fixed t.kind

@[simp] theorem fixed_kind (k : TokenKind) : (fixed k).kind = k := rfl

theorem essence_of_value {t : Token} (h : t.kind ∈ TokenKind.value) : t.essence = t := if_pos h

@[simp] theorem essence_kind (t : Token) : t.essence.kind = t.kind := by
  unfold essence
  split <;> rfl

theorem essence_of_not_value {t : Token} (h : t.kind ∉ TokenKind.value) :
    t.essence = fixed t.kind := if_neg h

theorem essence_of_fixed {t : Token} {k : TokenKind} (hk : k.IsFixed) (h : t.kind = k) :
    t.essence = fixed k := by
  subst h
  exact essence_of_not_value hk.not_mem_value

theorem map_kind_essence (tokens : List Token) :
    (tokens.map essence).map kind = tokens.map kind := by
  rw [List.map_map]
  exact List.map_congr_left fun t _ => essence_kind t

end Token

/-! ## Operators -/

def BinaryOp.kind : BinaryOp → TokenKind
  | add => .punct .plus
  | sub => .punct .minus
  | mul => .punct .star
  | div => .punct .slash

def Sign.kind : Sign → TokenKind
  | plus => .punct .plus
  | minus => .punct .minus

def RelationalOp.kind : RelationalOp → TokenKind
  | less => .punct .less
  | equal => .punct .equals
  | greater => .punct .greater

def DeclType.kind : DeclType → TokenKind
  | integer => .keyword .integer
  | real => .keyword .real

theorem BinaryOp.isFixed_kind (op : BinaryOp) : op.kind.IsFixed := by cases op <;> trivial

theorem Sign.isFixed_kind (sign : Sign) : sign.kind.IsFixed := by cases sign <;> trivial

theorem RelationalOp.isFixed_kind (op : RelationalOp) : op.kind.IsFixed := by cases op <;> trivial

theorem DeclType.isFixed_kind (type : DeclType) : type.kind.IsFixed := by cases type <;> trivial

/-- Whether it binds looser than a product. -/
def BinaryOp.IsAdditive : BinaryOp → Prop
  | add | sub => True
  | mul | div => False

instance : (op : BinaryOp) → Decidable op.IsAdditive
  | .add | .sub => isTrue trivial
  | .mul | .div => isFalse not_false

theorem BinaryOp.additive?_eq_some_iff {k : TokenKind} {op : BinaryOp} :
    additive? k = some op ↔ op.IsAdditive ∧ op.kind = k := by
  constructor
  · intro h
    unfold additive? at h
    split at h <;> cases h <;> exact ⟨trivial, rfl⟩
  · rintro ⟨h, rfl⟩
    cases op with
    | add | sub => rfl
    | mul | div => exact absurd h not_false

theorem BinaryOp.multiplicative?_eq_some_iff {k : TokenKind} {op : BinaryOp} :
    multiplicative? k = some op ↔ ¬op.IsAdditive ∧ op.kind = k := by
  constructor
  · intro h
    unfold multiplicative? at h
    split at h <;> cases h <;> exact ⟨not_false, rfl⟩
  · rintro ⟨h, rfl⟩
    cases op with
    | add | sub => exact absurd trivial h
    | mul | div => rfl

theorem Sign.ofKind?_eq_some_iff {k : TokenKind} {sign : Sign} :
    ofKind? k = some sign ↔ sign.kind = k := by
  constructor
  · intro h
    unfold ofKind? at h
    split at h <;> cases h <;> rfl
  · rintro rfl
    cases sign <;> rfl

theorem Sign.ofKind?_of_operandStart {k : TokenKind} (h : k ∈ TokenKind.operandStart) :
    ofKind? k = none := by
  simp only [TokenKind.operandStart, List.mem_cons, List.not_mem_nil, or_false] at h
  rcases h with rfl | rfl | rfl | rfl <;> rfl

theorem RelationalOp.ofKind?_eq_some_iff {k : TokenKind} {op : RelationalOp} :
    ofKind? k = some op ↔ op.kind = k := by
  constructor
  · intro h
    unfold ofKind? at h
    split at h <;> cases h <;> rfl
  · rintro rfl
    cases op <;> rfl

theorem RelationalOp.exists_of_mem {k : TokenKind} (h : k ∈ TokenKind.relationalOperator) :
    ∃ op : RelationalOp, op.kind = k := by
  simp only [TokenKind.relationalOperator, List.mem_cons, List.not_mem_nil, or_false] at h
  rcases h with rfl | rfl | rfl
  · exact ⟨.less, rfl⟩
  · exact ⟨.equal, rfl⟩
  · exact ⟨.greater, rfl⟩

/-! ## Spelling -/

def Expr.spelling : Expr → List Token
  | value _ token => [token]
  | unary _ sign operand => .fixed sign.kind :: operand.spelling
  | binary _ left op right => left.spelling ++ .fixed op.kind :: right.spelling
  | group _ inner => .fixed (.punct .lparen) :: inner.spelling ++ [.fixed (.punct .rparen)]
  | error _ => []

def Condition.spelling (c : Condition) : List Token :=
  c.left.spelling ++ (c.op.toList.map fun op => .fixed op.kind) ++ c.right.spelling

def afterCommas (parts : List (List Token)) : List Token :=
  parts.flatMap fun part => .fixed (.punct .comma) :: part

theorem afterCommas_cons (part : List Token) (rest : List (List Token)) :
    afterCommas (part :: rest) = .fixed (.punct .comma) :: (part ++ afterCommas rest) :=
  List.flatMap_cons

/-- Parts with commas in between. -/
def commaSeparated : List (List Token) → List Token
  | [] => []
  | first :: rest => first ++ afterCommas rest

def Ident.spellings (idents : List Ident) : List Token := commaSeparated (idents.map ([·.token]))

namespace Statement

mutual

def spelling : Statement → List Token
  | assignment _ target value => target.token :: .fixed (.punct .equals) :: value.spelling
  | loop _ test body =>
    .fixed (.keyword .untilCond) :: test.spelling ++ .fixed (.keyword .repeatBody) ::
      spellings body ++ [.fixed (.keyword .endLoop)]
  | conditional _ test whenTrue none =>
    .fixed (.keyword .ifCond) :: test.spelling ++ .fixed (.keyword .thenBranch) ::
      spellings whenTrue ++ [.fixed (.keyword .endIf)]
  | conditional _ test whenTrue (some otherwise) =>
    .fixed (.keyword .ifCond) :: test.spelling ++ .fixed (.keyword .thenBranch) ::
      spellings whenTrue ++ .fixed (.keyword .elseBranch) ::
      spellings otherwise ++ [.fixed (.keyword .endIf)]
  | input _ targets => .fixed (.keyword .input) :: Ident.spellings targets
  | output _ values => .fixed (.keyword .output) :: commaSeparated (values.map Expr.spelling)

def spellings : List Statement → List Token
  | [] => []
  | first :: rest => first.spelling ++ spellings rest

end

theorem spellings_eq_flatMap (body : List Statement) : spellings body = body.flatMap spelling := by
  induction body with
  | nil => rfl
  | cons first rest ih => rw [spellings, ih, List.flatMap_cons]

end Statement

def Declaration.spelling (d : Declaration) : List Token :=
  Ident.spellings d.idents ++ .fixed (.keyword .as) :: d.type.toList.map fun type => .fixed type.kind

def Program.spelling (p : Program) : List Token :=
  .fixed (.keyword .program) :: p.name.toList ++ .fixed (.keyword .withDecls) ::
    p.declarations.flatMap Declaration.spelling ++ .fixed (.keyword .inBody) ::
    Statement.spellings p.statements ++ [.fixed (.keyword .endProgram)]

end PalChecker
