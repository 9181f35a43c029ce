import PalChecker.Proofs.Syntax.Sentences

/-!
# Places in a sentence

A place is a word with one of its parts taken out, of which what stands before and behind is left. What
becomes of a sentence when that part is replaced is found for one construct after the other, from the
place outwards.
-/

namespace PalChecker.Grammar

/-! ## Places -/

/-- In a word of the rule, which is part of `own`, the tokens before and behind a part that `hole` derives
and that stands directly in `c`. -/
inductive Place (c : Construct) (hole : Rule) :
    (own : Construct) → Rule → List TokenKind → List TokenKind → Prop where
  | here : Place c hole c hole [] []
  | first {own : Construct} {a b : Rule} {u v w : List TokenKind} (h : Place c hole own a u v)
    (hw : Derives b w) : Place c hole own (.sequence a b) u (v ++ w)
  | second {own : Construct} {a b : Rule} {u v w : List TokenKind} (hw : Derives a w)
    (h : Place c hole own b u v) : Place c hole own (.sequence a b) (w ++ u) v
  | left {own : Construct} {a b : Rule} {u v : List TokenKind} (h : Place c hole own a u v) :
    Place c hole own (.either a b) u v
  | right {own : Construct} {a b : Rule} {u v : List TokenKind} (h : Place c hole own b u v) :
    Place c hole own (.either a b) u v
  | one {own : Construct} {body : Rule} {u v w : List TokenKind} (h : Place c hole own body u v)
    (hw : Derives (.many body) w) : Place c hole own (.many body) u (v ++ w)
  | later {own : Construct} {body : Rule} {u v w : List TokenKind} (hw : Derives body w)
    (h : Place c hole own (.many body) u v) : Place c hole own (.many body) (w ++ u) v
  | inside {own d : Construct} {u v : List TokenKind} (h : Place c hole d d.rule u v) :
    Place c hole own (.construct d) u v

theorem Place.derives {c own : Construct} {hole r : Rule} {u v w : List TokenKind}
    (h : Place c hole own r u v) (hw : Derives hole w) : Derives r (u ++ w ++ v) := by
  induction h with
  | here => rwa [List.nil_append, List.append_nil]
  | first _ hrest ih => exact .of_eq (.sequence ih hrest) (List.append_assoc ..)
  | second hfirst _ ih =>
    refine .of_eq (.sequence hfirst ih) ?_
    simp only [List.append_assoc]
  | left _ ih => exact .left ih
  | right _ ih => exact .right ih
  | one _ hrest ih => exact .of_eq (.more ih hrest) (List.append_assoc ..)
  | later hfirst _ ih =>
    refine .of_eq (.more hfirst ih) ?_
    simp only [List.append_assoc]
  | inside _ ih => exact .construct ih

theorem append_eq_append_cons {α : Type} {a b u v : List α} {x : α} (h : a ++ b = u ++ x :: v) :
    (∃ w, a = u ++ x :: w ∧ v = w ++ b) ∨ ∃ w, u = a ++ w ∧ b = w ++ x :: v := by
  rcases List.append_eq_append_iff.mp h with ⟨w, rfl, rfl⟩ | ⟨w, rfl, hw⟩
  · exact .inr ⟨w, rfl, rfl⟩
  · cases w with
    | nil => exact .inr ⟨[], (List.append_nil _).symm.trans (List.append_nil _).symm, hw.symm⟩
    | cons y w =>
      obtain ⟨rfl, rfl⟩ := List.cons.inj hw
      exact .inl ⟨w, rfl, rfl⟩

/-- `k` stands between `u` and `v` as a terminal of `c`. -/
def StandsIn (c : Construct) (k : TokenKind) (u v : List TokenKind) : Prop :=
  ∃ kinds, k ∈ kinds ∧ Place c (.token kinds) .program Construct.program.rule u v

/-- Every token of a word has its place. -/
theorem Derives.exists_place {r : Rule} {w : List TokenKind} (h : Derives r w) :
    ∀ (own : Construct) {u v : List TokenKind} {k : TokenKind}, w = u ++ k :: v →
      ∃ c kinds, k ∈ kinds ∧ Place c (.token kinds) own r u v := by
  induction h with
  | @token kinds x hx =>
    rintro own u v k h
    obtain ⟨rfl, rfl, rfl⟩ : u = [] ∧ x = k ∧ v = [] := by
      cases u with
      | nil => exact ⟨rfl, (List.cons.inj h).1, (List.cons.inj h).2.symm⟩
      | cons y u => exact absurd (List.cons.inj h).2.symm (by simp)
    exact ⟨own, kinds, hx, .here⟩
  | empty => exact fun _ _ _ _ h => absurd h.symm (by simp)
  | sequence hfirst hrest ihfirst ihrest =>
    intro own u v k h
    -- `k` stands in the first part or in the second.
    rcases append_eq_append_cons h with ⟨w, rfl, rfl⟩ | ⟨w, rfl, rfl⟩
    · obtain ⟨c, kinds, hk, hplace⟩ := ihfirst own rfl
      exact ⟨c, kinds, hk, .first hplace hrest⟩
    · obtain ⟨c, kinds, hk, hplace⟩ := ihrest own rfl
      exact ⟨c, kinds, hk, .second hfirst hplace⟩
  | left _ ih =>
    intro own u v k h
    obtain ⟨c, kinds, hk, hplace⟩ := ih own h
    exact ⟨c, kinds, hk, .left hplace⟩
  | right _ ih =>
    intro own u v k h
    obtain ⟨c, kinds, hk, hplace⟩ := ih own h
    exact ⟨c, kinds, hk, .right hplace⟩
  | none => exact fun _ _ _ _ h => absurd h.symm (by simp)
  | more hfirst hrest ihfirst ihrest =>
    intro own u v k h
    rcases append_eq_append_cons h with ⟨w, rfl, rfl⟩ | ⟨w, rfl, rfl⟩
    · obtain ⟨c, kinds, hk, hplace⟩ := ihfirst own rfl
      exact ⟨c, kinds, hk, .one hplace hrest⟩
    · obtain ⟨c, kinds, hk, hplace⟩ := ihrest own rfl
      exact ⟨c, kinds, hk, .later hfirst hplace⟩
  | @construct d _ _ ih =>
    intro own u v k h
    obtain ⟨c, kinds, hk, hplace⟩ := ih d h
    exact ⟨c, kinds, hk, .inside hplace⟩

theorem exists_standsIn {u v : List TokenKind} {k : TokenKind}
    (h : Construct.program.Derives (u ++ k :: v)) : ∃ c, StandsIn c k u v := by
  cases h with
  | construct h =>
    obtain ⟨c, kinds, hk, hplace⟩ := h.exists_place .program rfl
    exact ⟨c, kinds, hk, hplace⟩

/-! ## Altered words -/

section

variable (missing : Construct → List TokenKind → Prop) (altered : Construct → List Token → Prop)
  (own : Construct)

/-- The tokens are a word of the rule but for one part: a terminal that is missing, or a construct that is
altered. -/
def Rule.Altered : Rule → List Token → Prop
  | token kinds, w => missing own kinds ∧ w = []
  | empty, _ => False
  | sequence a b, w => ∃ u v, w = u ++ v ∧
    (a.Altered u ∧ b.Reads Construct.Reads v ∨ a.Reads Construct.Reads u ∧ b.Altered v)
  | either a b, w => a.Altered w ∨ b.Altered w
  | many body, w => ∃ (before : List (List Token)) (u : List Token) (after : List (List Token)),
    w = before.flatten ++ (u ++ after.flatten) ∧
      (∀ part ∈ before, body.Reads Construct.Reads part) ∧ body.Altered u ∧
        ∀ part ∈ after, body.Reads Construct.Reads part
  | construct d, w => altered d w

end

theorem altered_last {missing : Construct → List TokenKind → Prop}
    {altered : Construct → List Token → Prop} {own : Construct} {r : Rule} {w : List Token}
    (h : (Rule.sequence r .empty).Altered missing altered own w) : r.Altered missing altered own w := by
  obtain ⟨u, v, rfl, ⟨h, rfl⟩ | ⟨-, hfalse⟩⟩ := h
  · rwa [List.append_nil]
  · exact hfalse.elim

theorem altered_fixed {missing : Construct → List TokenKind → Prop}
    {altered : Construct → List Token → Prop} {own : Construct} {k : TokenKind} {r : Rule}
    {w : List Token} (hk : k.IsFixed) (hmissing : ¬missing own [k])
    (h : (Rule.sequence (.token [k]) r).Altered missing altered own w) :
    ∃ v, w.map Token.essence = .fixed k :: v.map Token.essence ∧ r.Altered missing altered own v := by
  obtain ⟨u, v, rfl, ⟨h, -⟩ | ⟨hu, h⟩⟩ := h
  · exact absurd h.1 hmissing
  · have hu := (reads_fixed_iff hk).mp hu
    refine ⟨v, ?_, h⟩
    rw [List.map_append, hu, List.singleton_append]

theorem Derives.readsAll {r : Rule} {w : List TokenKind} (h : Derives r w) (u : List Token)
    (hu : u.map Token.kind = w) : r.Reads Construct.Reads u := h.reads reads_rule u hu

/-- From a hole that is altered to the word around it. -/
theorem Place.altered {missing : Construct → List TokenKind → Prop}
    {altered : Construct → List Token → Prop} {c own : Construct} {hole r : Rule}
    {u v : List TokenKind} {w : List Token}
    (hconstruct : ∀ d w, d.rule.Altered missing altered d w → altered d w)
    (hhole : hole.Altered missing altered c w) (h : Place c hole own r u v) :
    ∀ before behind : List Token, before.map Token.kind = u → behind.map Token.kind = v →
      r.Altered missing altered own (before ++ (w ++ behind)) := by
  -- The parts beside the hole are read as they stand, so the altered part is the one with the hole.
  induction h with
  | here =>
    rintro before behind hbefore hbehind
    rw [List.map_eq_nil_iff.mp hbefore, List.map_eq_nil_iff.mp hbehind, List.append_nil]
    exact hhole
  | first _ hrest ih =>
    rintro before _ hbefore hbehind
    obtain ⟨behind, rest, rfl, hbehind, hword⟩ := List.map_eq_append_iff.mp hbehind
    refine ⟨before ++ (w ++ behind), rest, ?_, .inl ⟨ih _ _ hbefore hbehind, hrest.readsAll rest hword⟩⟩
    simp only [List.append_assoc]
  | second hfirst _ ih =>
    rintro _ behind hbefore hbehind
    obtain ⟨start, before, rfl, hword, hbefore⟩ := List.map_eq_append_iff.mp hbefore
    refine ⟨start, before ++ (w ++ behind), ?_, .inr ⟨hfirst.readsAll start hword, ih _ _ hbefore hbehind⟩⟩
    exact List.append_assoc ..
  | left _ ih => exact fun before behind hbefore hbehind => .inl (ih _ _ hbefore hbehind)
  | right _ ih => exact fun before behind hbefore hbehind => .inr (ih _ _ hbefore hbehind)
  | one _ hrest ih =>
    rintro before _ hbefore hbehind
    obtain ⟨behind, rest, rfl, hv, hword⟩ := List.map_eq_append_iff.mp hbehind
    obtain ⟨after, hafter, rfl⟩ := hrest.readsAll rest hword
    refine ⟨[], before ++ (w ++ behind), after, ?_, fun _ h => absurd h List.not_mem_nil,
      ih _ _ hbefore hv, hafter⟩
    simp only [List.flatten_nil, List.nil_append, List.append_assoc]
  | later hfirst _ ih =>
    rintro _ behind hbefore hbehind
    obtain ⟨start, before, rfl, hword, hbefore⟩ := List.map_eq_append_iff.mp hbefore
    obtain ⟨parts, u, after, heq, hparts, hu, hafter⟩ := ih _ _ hbefore hbehind
    refine ⟨start :: parts, u, after, ?_,
      List.forall_mem_cons.mpr ⟨hfirst.readsAll start hword, hparts⟩, hu, hafter⟩
    rw [List.append_assoc, heq, List.flatten_cons, List.append_assoc]
  | inside _ ih => exact fun before behind hbefore hbehind => hconstruct _ _ (ih _ _ hbefore hbehind)

end PalChecker.Grammar
