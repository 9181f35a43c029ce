import PalChecker.Proofs.Syntax.Sentences

/-!
# Sentences strewn with stray tokens

A run of stray tokens can stand before each statement, and at the end of each block. Everything but the
statements and the blocks they stand in has no place for one.
-/

namespace PalChecker

/-- Tokens that neither begin a statement nor end a block, and with the first of which nothing goes
on. -/
structure StrayRun where
  first : Token
  others : List Token
  alien : ∀ t ∈ first :: others,
    t.kind ∉ TokenKind.endOfFile :: (TokenKind.statementStart ++ TokenKind.blockEnd)
  ends : first.kind ∉
    [TokenKind.punct .plus, .punct .minus, .punct .star, .punct .slash, .punct .comma]

def StrayRun.tokens (run : StrayRun) : List Token := run.first :: run.others

namespace Grammar

/-! ## Strewn words -/

/-- A word of the rule, the word with the runs put in where statements begin and where blocks end, and
the runs in their order. -/
inductive Strewn : Rule → List Token → List Token → List StrayRun → Prop where
  | token {kinds : List TokenKind} {t : Token} (h : t.kind ∈ kinds) : Strewn (.token kinds) [t] [t] []
  | empty : Strewn .empty [] [] []
  | sequence {a b : Rule} {u u' v v' : List Token} {runs more : List StrayRun} (hu : Strewn a u u' runs)
    (hv : Strewn b v v' more) : Strewn (.sequence a b) (u ++ v) (u' ++ v') (runs ++ more)
  | left {a b : Rule} {u u' : List Token} {runs : List StrayRun} (h : Strewn a u u' runs) :
    Strewn (.either a b) u u' runs
  | right {a b : Rule} {u u' : List Token} {runs : List StrayRun} (h : Strewn b u u' runs) :
    Strewn (.either a b) u u' runs
  | none {a : Rule} : Strewn (.many a) [] [] []
  | more {a : Rule} {u u' v v' : List Token} {runs more : List StrayRun} (hu : Strewn a u u' runs)
    (hv : Strewn (.many a) v v' more) : Strewn (.many a) (u ++ v) (u' ++ v') (runs ++ more)
  | construct {c : Construct} {u u' : List Token} {runs : List StrayRun} (h : Strewn c.rule u u' runs) :
    Strewn (.construct c) u u' runs
  /-- One run right before a statement. -/
  | before {u u' : List Token} {runs : List StrayRun} (run : StrayRun)
    (h : Strewn Construct.statement.rule u u' runs) :
    Strewn (.construct .statement) u (run.tokens ++ u') (run :: runs)
  /-- One run behind the last statement of a block, or in a block that has none. -/
  | behind (run : StrayRun) : Strewn (.many (.construct .statement)) [] run.tokens [run]

theorem Strewn.derives {r : Rule} {w w' : List Token} {runs : List StrayRun} (h : Strewn r w w' runs) :
    Derives r (w.map Token.kind) := by
  induction h with
  | token h => exact .token h
  | empty => exact .empty
  | sequence _ _ hu hv =>
    rw [List.map_append]
    exact .sequence hu hv
  | left _ h => exact .left h
  | right _ h => exact .right h
  | none | behind => exact .none
  | more _ _ hu hv =>
    rw [List.map_append]
    exact .more hu hv
  | construct _ h | before _ _ h => exact .construct h

theorem Derives.strewn {r : Rule} {w : List TokenKind} (h : Derives r w) :
    ∀ u : List Token, u.map Token.kind = w → Strewn r u u [] := by
  induction h with
  | token hk =>
    intro u hu
    obtain ⟨t, rfl, rfl⟩ := List.map_eq_singleton_iff.mp hu
    exact .token hk
  | empty | none =>
    intro u hu
    rw [List.map_eq_nil_iff.mp hu]
    constructor
  | sequence _ _ ihu ihv =>
    intro w hw
    obtain ⟨u, v, rfl, hu, hv⟩ := List.map_eq_append_iff.mp hw
    exact .sequence (ihu u hu) (ihv v hv)
  | more _ _ ihu ihv =>
    intro w hw
    obtain ⟨u, v, rfl, hu, hv⟩ := List.map_eq_append_iff.mp hw
    exact .more (ihu u hu) (ihv v hv)
  | left _ ih => exact fun u hu => .left (ih u hu)
  | right _ ih => exact fun u hu => .right (ih u hu)
  | construct _ ih => exact fun u hu => .construct (ih u hu)

/-! ## Where no run can stand -/

/-- Constructs in which there are no statements. -/
def Construct.IsPlain (c : Construct) : Prop := c ≠ .program ∧ c ≠ .statement

/-- Rules in which there are no statements. -/
def Rule.IsPlain : Rule → Prop
  | token _ | empty => True
  | sequence a b | either a b => a.IsPlain ∧ b.IsPlain
  | many body => body.IsPlain
  | construct c => c.IsPlain

theorem Construct.IsPlain.rule {c : Construct} (h : c.IsPlain) : c.rule.IsPlain := by
  cases c with
  | program => exact absurd rfl h.1
  | statement => exact absurd rfl h.2
  | group | condition | expression | term | factor =>
    simp [Construct.rule, Rule.IsPlain, Rule.inOrder, Rule.oneOf, Rule.separated, Rule.optional,
      Rule.keyword, Rule.punct, identifiers, operand, Construct.IsPlain]

theorem Strewn.plain {r : Rule} {w w' : List Token} {runs : List StrayRun} (h : Strewn r w w' runs)
    (hr : r.IsPlain) : w' = w ∧ runs = [] := by
  induction h with
  | token | empty | none => exact ⟨rfl, rfl⟩
  | sequence _ _ hu hv =>
    obtain ⟨rfl, rfl⟩ := hu hr.1
    obtain ⟨rfl, rfl⟩ := hv hr.2
    exact ⟨rfl, rfl⟩
  | more _ _ hu hv =>
    obtain ⟨rfl, rfl⟩ := hu hr
    obtain ⟨rfl, rfl⟩ := hv hr
    exact ⟨rfl, rfl⟩
  | left _ h => exact h hr.1
  | right _ h => exact h hr.2
  | construct _ h => exact h hr.rule
  | before | behind => exact absurd rfl hr.2

/-! ## Parts of a strewn word -/

section

variable {r : Rule} {w w' : List Token} {runs : List StrayRun}

theorem exists_of_strewn_plain {a : Rule} (ha : a.IsPlain) (h : Strewn (.sequence a r) w w' runs) :
    ∃ u v v', w = u ++ v ∧ w' = u ++ v' ∧ a.Reads Construct.Reads u ∧ Strewn r v v' runs := by
  cases h with
  | @sequence _ _ u u' v v' _ _ hu hv =>
    obtain ⟨rfl, rfl⟩ := hu.plain ha
    exact ⟨u', v, v', rfl, rfl, hu.derives.reads reads_rule u' rfl, hv⟩

theorem exists_of_strewn_fixed {k : TokenKind} (h : Strewn (.sequence (.token [k]) r) w w' runs) :
    ∃ t v v', t.kind = k ∧ w = t :: v ∧ w' = t :: v' ∧ Strewn r v v' runs := by
  obtain ⟨_, v, v', rfl, rfl, ⟨t, ht, rfl⟩, hv⟩ := exists_of_strewn_plain (a := .token [k]) trivial h
  exact ⟨t, v, v', List.mem_singleton.mp ht, rfl, rfl, hv⟩

theorem strewn_last (h : Strewn (.sequence r .empty) w w' runs) : Strewn r w w' runs := by
  cases h with
  | sequence hu hv =>
    cases hv with
    | empty => simpa only [List.append_nil] using hu

end

end Grammar

end PalChecker
