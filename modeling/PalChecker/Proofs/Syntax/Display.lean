import PalChecker.Proofs.Syntax.Canonical
import PalChecker.Proofs.Syntax.HeldTokens
import PalChecker.Proofs.Token.Spelling

/-!
# What the text of an expression says

An expression is shown with parentheses around binary operators alone, and a sign is shown without any. Its
text still says where it ends, whatever stands behind it. So two expressions with one text have the same
operators, nested alike, over the same operands.
-/

namespace PalChecker

/-! ## The texts of operands -/

/-- How a name or a number of this kind is written. -/
def TokenKind.Writes : TokenKind → List Char → Prop
  | identifier, raw => Lexer.IsWord raw
  | integerLiteral, raw => Lexer.IsDigits raw
  | realLiteral, raw =>
    ∃ whole part, Lexer.IsDigits whole ∧ Lexer.IsDigits part ∧ raw = whole ++ '.' :: part
  | _, _ => False

/-- The kind of the name or the number that is written so: the first character and the point tell. -/
def TokenKind.ofText (raw : List Char) : TokenKind :=
  if raw.head?.any Char.isAlpha then identifier else if '.' ∈ raw then realLiteral else integerLiteral

def isOperandChar (c : Char) : Bool := Lexer.isWordChar c || c = '.'

/-- No operand in front of it goes on in it. -/
def EndsOperand (rest : List Char) : Prop := ∀ c ∈ rest.head?, isOperandChar c = false

theorem isOperandChar_of_isAlpha {c : Char} (h : c.isAlpha = true) : isOperandChar c = true := by
  rw [isOperandChar, Lexer.isWordChar_iff.mpr (.inl h), Bool.true_or]

theorem isOperandChar_of_isDigit {c : Char} (h : c.isDigit = true) : isOperandChar c = true := by
  rw [isOperandChar, Lexer.isWordChar_iff.mpr (.inr (.inl h)), Bool.true_or]

namespace TokenKind.Writes

variable {k k' : TokenKind} {raw raw' rest rest' : List Char}

theorem operandChars (h : k.Writes raw) : raw ≠ [] ∧ ∀ c ∈ raw, isOperandChar c = true := by
  have hdigits {raw : List Char} (h : Lexer.IsDigits raw) : ∀ c ∈ raw, isOperandChar c = true :=
    fun c hc => isOperandChar_of_isDigit (h.2 c hc)
  unfold Writes at h
  split at h
  · obtain ⟨c, cs, rfl, hc, hcs⟩ := h
    refine ⟨List.cons_ne_nil c cs, List.forall_mem_cons.mpr ⟨isOperandChar_of_isAlpha hc, fun d hd => ?_⟩⟩
    rw [isOperandChar, Lexer.isWordChar_iff.mpr (hcs d hd), Bool.true_or]
  · exact ⟨h.1, hdigits h⟩
  · obtain ⟨whole, part, hwhole, hpart, rfl⟩ := h
    refine ⟨List.append_ne_nil_of_left_ne_nil hwhole.1 _, List.forall_mem_append.mpr ⟨hdigits hwhole, ?_⟩⟩
    exact List.forall_mem_cons.mpr ⟨rfl, hdigits hpart⟩
  · exact absurd h not_false

theorem takeWhile_append (h : k.Writes raw) (hrest : EndsOperand rest) :
    (raw ++ rest).takeWhile isOperandChar = raw := (run_append h.operandChars.2 hrest).1

theorem append_inj (h : k.Writes raw) (h' : k'.Writes raw') (hrest : EndsOperand rest)
    (hrest' : EndsOperand rest') (heq : raw ++ rest = raw' ++ rest') : raw = raw' ∧ rest = rest' := by
  have hraw : raw = raw' := by
    rw [← h.takeWhile_append hrest, heq, h'.takeWhile_append hrest']
  subst hraw
  exact ⟨rfl, List.append_cancel_left heq⟩

theorem ofText_eq (h : k.Writes raw) : ofText raw = k := by
  have hdigit {c : Char} (hc : c.isDigit = true) (cs : List Char) :
      ¬(c :: cs).head?.any Char.isAlpha = true := fun h =>
    absurd hc (Bool.eq_false_iff.mp (Lexer.isDigit_eq_false_of_isAlpha h))
  unfold Writes at h
  split at h
  · obtain ⟨c, cs, rfl, hc, -⟩ := h
    exact if_pos hc
  · obtain ⟨d, ds, rfl, hd, -⟩ := h.exists_cons
    have hpoint : '.' ∉ d :: ds := fun hmem => absurd (h.2 '.' hmem) (by decide)
    exact (if_neg (hdigit hd ds)).trans (if_neg hpoint)
  · obtain ⟨whole, part, hwhole, -, rfl⟩ := h
    obtain ⟨d, ds, rfl, hd, -⟩ := hwhole.exists_cons
    have hpoint : '.' ∈ d :: ds ++ '.' :: part := List.mem_append_right _ List.mem_cons_self
    exact (if_neg (hdigit hd _)).trans (if_pos hpoint)
  · exact absurd h not_false

end TokenKind.Writes

namespace Token

/-- Its text is that of a name or a number, whatever its kind. -/
def IsLegible (t : Token) : Prop := ∃ k : TokenKind, k.Writes t.value.toList

/-- Its text is that of a name or a number, as its kind has it. -/
def IsOperand (t : Token) : Prop := t.kind.Writes t.value.toList

def unplaced (t : Token) : Token := { t with location := .start }

/-- The text alone. -/
def textOnly (t : Token) : Token := ⟨.identifier, t.value, .start⟩

theorem IsOperand.isLegible {t : Token} (h : t.IsOperand) : t.IsLegible := ⟨t.kind, h⟩

end Token

/-! ## Expressions without what is not shown -/

/-- An expression without its parentheses and its stamps, and with `f` of its tokens. -/
def Expr.bared (f : Token → Token) : Expr → Expr
  | value _ token => value .blank (f token)
  | unary _ sign operand => unary .blank sign (operand.bared f)
  | binary _ left op right => binary .blank (left.bared f) op (right.bared f)
  | group _ inner => inner.bared f
  | error _ => error .blank

/-- Without parentheses and stamps, and over such tokens. -/
inductive Expr.IsBare (P : Token → Prop) : Expr → Prop where
  | value {token : Token} (h : P token) : IsBare P (.value .blank token)
  | unary {sign : Sign} {operand : Expr} (h : IsBare P operand) : IsBare P (.unary .blank sign operand)
  | binary {left right : Expr} {op : BinaryOp} (hleft : IsBare P left) (hright : IsBare P right) :
    IsBare P (.binary .blank left op right)
  | error : IsBare P (.error .blank)

namespace Expr

theorem display_bared {f : Token → Token} (hf : ∀ t, (f t).value = t.value) (e : Expr) :
    (e.bared f).display = e.display := by
  induction e with
  | value _ token => exact hf token
  | unary _ _ _ ih => rw [bared, display, display, ih]
  | binary _ _ _ _ ihleft ihright => rw [bared, display, display, ihleft, ihright]
  | group _ _ ih => exact ih
  | error => rfl

theorem isBare_bared {P : Token → Prop} {f : Token → Token} (e : Expr) (h : ∀ t ∈ e.tokens, P (f t)) :
    (e.bared f).IsBare P := by
  induction e with
  | value _ token => exact .value (h token List.mem_cons_self)
  | unary _ _ _ ih => exact .unary (ih h)
  | binary _ _ _ _ ihleft ihright =>
    obtain ⟨hleft, hright⟩ := List.forall_mem_append.mp h
    exact .binary (ihleft hleft) (ihright hright)
  | group _ _ ih => exact ih h
  | error => exact .error

end Expr

/-! ## Where a text ends -/

theorem BinaryOp.text_append_inj {op op' : BinaryOp} {rest rest' : List Char}
    (h : op.text.toList ++ rest = op'.text.toList ++ rest') : op = op' ∧ rest = rest' := by
  cases op <;> cases op' <;> simp [text] at h <;> exact ⟨rfl, h⟩

namespace Expr

theorem toList_display_binary (stamp : Stamp) (left : Expr) (op : BinaryOp) (right : Expr)
    (rest : List Char) :
    (binary stamp left op right).display.toList ++ rest =
      '(' :: (left.display.toList ++ ' ' :: (op.text.toList ++
        ' ' :: (right.display.toList ++ ')' :: rest))) := by
  simp [display]

/-- The character that it begins with, unless that is one of an operand. -/
def lead? : Expr → Option Char
  | value .. => none
  | unary _ sign _ => sign.text.toList.head?
  | binary .. => some '('
  | group _ inner => inner.lead?
  | error _ => some '<'

namespace IsBare

variable {P : Token → Prop} {d e : Expr} {rest rest' : List Char}

theorem head?_display (htext : ∀ t, P t → t.IsLegible) (hd : d.IsBare P) :
    (d.display.toList ++ rest).head?.filter (!isOperandChar ·) = d.lead? := by
  cases hd with
  | @value t ht =>
    obtain ⟨k, hk⟩ := htext t ht
    obtain ⟨hne, hall⟩ := hk.operandChars
    obtain ⟨c, cs, hcons⟩ := List.exists_cons_of_ne_nil hne
    have hc : isOperandChar c = true := hall c (hcons ▸ List.mem_cons_self)
    rw [display, hcons, List.cons_append, List.head?_cons, Option.filter_some, hc]
    rfl
  | @unary sign => cases sign <;> simp [display, lead?, Sign.text] <;> decide
  | binary =>
    rw [toList_display_binary]
    rfl
  | error => rfl

theorem exists_value (he : e.IsBare P) (h : e.lead? = none) : ∃ t, P t ∧ e = .value .blank t := by
  cases he with
  | value ht => exact ⟨_, ht, rfl⟩
  | @unary sign => cases sign <;> cases h
  | binary | error => cases h

theorem exists_unary {sign : Sign} (he : e.IsBare P) (h : e.lead? = sign.text.toList.head?) :
    ∃ operand : Expr, operand.IsBare P ∧ e = .unary .blank sign operand := by
  cases he with
  | @unary sign' operand hoperand =>
    have hsign : sign' = sign := by cases sign <;> cases sign' <;> simp [lead?, Sign.text] at h ⊢
    exact ⟨operand, hoperand, hsign ▸ rfl⟩
  | value | binary | error => cases sign <;> simp [lead?, Sign.text] at h

theorem exists_binary (he : e.IsBare P) (h : e.lead? = some '(') :
    ∃ (left : Expr) (op : BinaryOp) (right : Expr),
      left.IsBare P ∧ right.IsBare P ∧ e = .binary .blank left op right := by
  cases he with
  | binary hleft hright => exact ⟨_, _, _, hleft, hright, rfl⟩
  | @unary sign => cases sign <;> simp [lead?, Sign.text] at h
  | value | error => simp [lead?] at h

theorem eq_error (he : e.IsBare P) (h : e.lead? = some '<') : e = .error .blank := by
  cases he with
  | error => rfl
  | @unary sign => cases sign <;> simp [lead?, Sign.text] at h
  | value | binary => simp [lead?] at h

/-- A text says where it ends, and what it is the text of. -/
theorem append_inj (htext : ∀ t, P t → t.IsLegible)
    (hunique : ∀ t u, P t → P u → t.value = u.value → t = u) (hd : d.IsBare P) (he : e.IsBare P)
    (hrest : EndsOperand rest) (hrest' : EndsOperand rest')
    (h : d.display.toList ++ rest = e.display.toList ++ rest') : d = e ∧ rest = rest' := by
  induction hd generalizing e rest rest' with
  | @value t ht =>
    -- The first character says of which kind the other expression is.
    have hlead := (head?_display htext he).symm.trans (h ▸ head?_display htext (.value ht))
    obtain ⟨u, hu, rfl⟩ := he.exists_value hlead
    obtain ⟨k, hk⟩ := htext t ht
    obtain ⟨k', hk'⟩ := htext u hu
    obtain ⟨hvalue, hrests⟩ := hk.append_inj hk' hrest hrest' h
    rw [hunique t u ht hu (String.toList_injective hvalue)]
    exact ⟨rfl, hrests⟩
  | unary hoperand ih =>
    have hlead := (head?_display htext he).symm.trans (h ▸ head?_display htext (.unary hoperand))
    obtain ⟨operand, hoperand', rfl⟩ := he.exists_unary hlead
    rw [display, display, String.toList_append, String.toList_append, List.append_assoc,
      List.append_assoc] at h
    obtain ⟨rfl, hrests⟩ := ih hoperand' hrest hrest' (List.append_cancel_left h)
    exact ⟨rfl, hrests⟩
  | binary hleft hright ihleft ihright =>
    have hlead := (head?_display htext he).symm.trans (h ▸ head?_display htext (.binary hleft hright))
    obtain ⟨left, op, right, hleft', hright', rfl⟩ := he.exists_binary hlead
    -- The left operand ends at a blank, and the right one at a parenthesis.
    have hblank {rest : List Char} : EndsOperand (' ' :: rest) := by
      rintro c ⟨⟩
      rfl
    rw [toList_display_binary, toList_display_binary] at h
    obtain ⟨rfl, hop⟩ := ihleft hleft' hblank hblank (List.cons.inj h).2
    obtain ⟨rfl, hspace⟩ := BinaryOp.text_append_inj (List.cons.inj hop).2
    have hclose {rest : List Char} : EndsOperand (')' :: rest) := by
      rintro c ⟨⟩
      rfl
    obtain ⟨rfl, hrests⟩ := ihright hright' hclose hclose (List.cons.inj hspace).2
    exact ⟨rfl, (List.cons.inj hrests).2⟩
  | error =>
    have hlead := (head?_display htext he).symm.trans (h ▸ head?_display htext .error)
    obtain rfl := he.eq_error hlead
    exact ⟨rfl, List.append_cancel_left h⟩

end IsBare

/-- What is left of two expressions that are shown alike is the same, if the texts tell its tokens apart. -/
theorem bared_eq {P : Token → Prop} {f : Token → Token} {d e : Expr} (hf : ∀ t, (f t).value = t.value)
    (htext : ∀ t, P t → t.IsLegible) (hunique : ∀ t u, P t → P u → t.value = u.value → t = u)
    (hd : ∀ t ∈ d.tokens, P (f t)) (he : ∀ t ∈ e.tokens, P (f t)) (h : d.display = e.display) :
    d.bared f = e.bared f := by
  have hsame : (d.bared f).display.toList ++ [] = (e.bared f).display.toList ++ [] := by
    rw [display_bared hf, display_bared hf, h]
  have hends : EndsOperand [] := fun _ hc => nomatch hc
  exact ((isBare_bared d hd).append_inj htext hunique (isBare_bared e he) hends hends hsame).1

end Expr

/-- Two expressions that are shown alike have the same operators, nested alike, over operands of the same
texts. If each operand is of the kind that its text is of, they differ in parentheses, places and numbers
alone. -/
theorem expressions_shown_alike_are_alike {d e : Expr} (hd : ∀ t ∈ d.tokens, t.IsLegible)
    (he : ∀ t ∈ e.tokens, t.IsLegible) (h : d.display = e.display) :
    d.bared .textOnly = e.bared .textOnly ∧
      ((∀ t ∈ d.tokens, t.IsOperand) → (∀ t ∈ e.tokens, t.IsOperand) →
        d.bared .unplaced = e.bared .unplaced) := by
  constructor
  · refine Expr.bared_eq (P := fun t => t.IsLegible ∧ t = t.textOnly) (fun _ => rfl) (fun t ht => ht.1) ?_
      (fun t ht => ⟨hd t ht, rfl⟩) (fun t ht => ⟨he t ht, rfl⟩) h
    rintro t u ⟨-, ht⟩ ⟨-, hu⟩ hvalue
    rw [ht, hu, Token.textOnly, Token.textOnly, hvalue]
  · intro hd he
    refine Expr.bared_eq (P := fun t => t.IsOperand ∧ t = t.unplaced) (fun _ => rfl)
      (fun t ht => ht.1.isLegible) ?_ (fun t ht => ⟨hd t ht, rfl⟩) (fun t ht => ⟨he t ht, rfl⟩) h
    rintro t u ⟨htext, ht⟩ ⟨hutext, hu⟩ hvalue
    -- The text of an operand tells its kind.
    have hkind : t.kind = u.kind := by
      rw [← htext.ofText_eq, ← hutext.ofText_eq, hvalue]
    rw [ht, hu, Token.unplaced, Token.unplaced, hkind, hvalue]

/-- The parentheses behind the sign are those of the sum, whether the source has them or not. -/
theorem expressions_shown_alike_are_alike_of_group :
    let name : Token := ⟨.identifier, "a", ⟨1, 3⟩⟩
    let number : Token := ⟨.integerLiteral, "1", ⟨1, 7⟩⟩
    let sum : Expr := .binary ⟨⟨1, 5⟩, 2⟩ (.value ⟨⟨1, 3⟩, 0⟩ name) .add (.value ⟨⟨1, 7⟩, 1⟩ number)
    let d : Expr := .unary ⟨⟨1, 1⟩, 4⟩ .minus (.group ⟨⟨1, 2⟩, 3⟩ sum)
    let e : Expr := .unary ⟨⟨1, 1⟩, 3⟩ .minus sum
    (∀ t ∈ d.tokens, t.IsOperand) ∧ d.display = "-(a + 1)" ∧ e.display = "-(a + 1)" ∧ d ≠ e ∧
      d.bared .unplaced = e.bared .unplaced := by
  intro name number sum d e
  have hname : name.IsOperand := ⟨'a', [], by decide, rfl, fun _ h => absurd h List.not_mem_nil⟩
  have hdigit : number.value.toList = ['1'] := by decide
  have hnumber : number.IsOperand :=
    ⟨hdigit ▸ List.cons_ne_nil _ _, hdigit ▸ List.forall_mem_singleton.mpr rfl⟩
  have hd : ∀ t ∈ d.tokens, t.IsOperand := by
    exact List.forall_mem_cons.mpr ⟨hname, List.forall_mem_singleton.mpr hnumber⟩
  have hlegible : ∀ t ∈ d.tokens, t.IsLegible := fun t ht => (hd t ht).isLegible
  exact ⟨hd, rfl, rfl, by decide, (expressions_shown_alike_are_alike hlegible hlegible rfl).2 hd hd⟩

end PalChecker
