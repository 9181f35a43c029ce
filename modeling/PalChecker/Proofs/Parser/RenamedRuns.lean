import PalChecker.Proofs.Parser.Lockstep

/-!
# Runs over other tokens

A parse looks at the kinds of its tokens and at nothing else of them. Over other tokens of the same kinds
it therefore does the same, with the new tokens in place of the old ones.
-/

namespace PalChecker

variable (r : Renaming)

/-! ## What a parse reports -/

def Symbol.renamed (s : Symbol) : Symbol := { s with token := r.token s.token }

def Diagnostic.renamed : Diagnostic → Diagnostic
  | syntaxError n found => syntaxError n (r.token found)
  | alreadyDeclared token existing => alreadyDeclared (r.token token) (existing.renamed r)
  | notDeclared token => notDeclared (r.token token)
  | typeConflict token actual expected => typeConflict (r.token token) actual expected

def Finding.renamed (f : Finding) : Finding := { f with diagnostic := f.diagnostic.renamed r }

/-! ## Cursors -/

namespace Cursor

def renamed (c : Cursor) : Cursor where
  passed := c.passed.map r.token
  ahead := c.ahead.map r.token
  closing := r.token c.closing
  closing_kind := (r.kind_token c.closing).trans c.closing_kind

variable (c : Cursor)

theorem current_renamed : (c.renamed r).current = r.token c.current := by
  unfold current renamed
  cases c.ahead <;> rfl

theorem next_renamed : (c.renamed r).next = r.token c.next := by
  unfold next renamed
  cases c.ahead with
  | nil => rfl
  | cons _ rest => cases rest <;> rfl

theorem advance_renamed : (c.renamed r).advance = c.advance.renamed r := by
  cases c with
  | mk passed ahead closing closing_kind => cases ahead <;> rfl

theorem not_halts_comp (stops : List TokenKind) :
    (fun t => decide ¬Halts stops t) ∘ r.token = fun t => decide ¬Halts stops t := by
  funext t
  have hhalts : Halts stops (r.token t) ↔ Halts stops t := by
    unfold Halts
    rw [r.kind_token]
  simp only [Function.comp_apply, hhalts]

theorem skipped_renamed (stops : List TokenKind) :
    (c.renamed r).skipped stops = (c.skipped stops).map r.token := by
  unfold skipped renamed
  rw [List.takeWhile_map, not_halts_comp]

theorem skipUntil_renamed (stops : List TokenKind) :
    (c.renamed r).skipUntil stops = (c.skipUntil stops).renamed r := by
  have hahead : (c.ahead.map r.token).dropWhile (fun t => ¬Halts stops t) =
      (c.ahead.dropWhile fun t => ¬Halts stops t).map r.token := by
    rw [List.dropWhile_map, not_halts_comp]
  unfold skipUntil
  rw [skipped_renamed]
  simp only [renamed, List.map_append, List.map_reverse, hahead]

theorem ofTokens_renamed {tokens : List Token} (hne : tokens ≠ [])
    (hend : ∀ place, r.token (.endOfFile place) = .endOfFile (r.place place)) :
    ofTokens (tokens.map r.token) = (ofTokens tokens).renamed r := by
  obtain ⟨before, last, rfl⟩ : ∃ before last, tokens = before ++ [last] :=
    ⟨_, _, (List.dropLast_concat_getLast hne).symm⟩
  rw [List.map_append, List.map_singleton]
  by_cases hkind : last.kind = .endOfFile
  · rw [ofTokens_concat_of_endOfFile _ ((r.kind_token last).trans hkind),
      ofTokens_concat_of_endOfFile _ hkind]
    rfl
  · -- The end of file is added, where the last token stands.
    have hkind' : (r.token last).kind ≠ .endOfFile := by rwa [r.kind_token]
    rw [ofTokens_concat_of_ne _ hkind', ofTokens_concat_of_ne _ hkind]
    simp only [renamed, List.map_append, List.map_singleton, List.map_nil, hend, r.location_token]

end Cursor

/-! ## States -/

namespace Parser

def Action.renamed : Action → Action
  | consumed token => consumed (r.token token)
  | discarded token => discarded (r.token token)
  | skipped n tokens start finish => skipped n (tokens.map r.token) (r.place start) (r.place finish)
  | reported seq n found => reported seq n (r.token found)
  | suppressed n location => suppressed n (r.place location)

theorem Action.finding?_renamed (a : Action) :
    (a.renamed r).finding? = a.finding?.map (Finding.renamed r) := by
  cases a <;> rfl

namespace State

def renamed (s : State) : State where
  cursor := s.cursor.renamed r
  recovering := s.recovering
  issued := s.issued
  journal := s.journal.map (Action.renamed r)

variable (s : State)

theorem current_renamed : (s.renamed r).current = r.token s.current := s.cursor.current_renamed r

theorem location_renamed : (s.renamed r).location = r.place s.location := by
  unfold location
  rw [current_renamed, r.location_token]

theorem bump_renamed : (s.renamed r).bump = s.bump.renamed r := by
  simp only [bump, note, current_renamed]
  simp only [renamed, Cursor.advance_renamed, List.map_cons, Action.renamed]

theorem discard_renamed : (s.renamed r).discard = s.discard.renamed r := by
  simp only [discard, note, current_renamed]
  simp only [renamed, Cursor.advance_renamed, List.map_cons, Action.renamed]

theorem fail_renamed (n : Nonterminal) : (s.renamed r).fail n = (s.fail n).renamed r := by
  cases hs : s.recovering with
  | true =>
    rw [fail_of_recovering n hs, fail_of_recovering n (s := s.renamed r) hs, location_renamed]
    rfl
  | false =>
    rw [fail_of_not_recovering n hs, fail_of_not_recovering n (s := s.renamed r) hs, current_renamed]
    rfl

theorem synchronize_renamed (n : Nonterminal) (extra : List TokenKind) :
    (s.renamed r).synchronize n extra = (s.synchronize n extra).renamed r := by
  simp only [synchronize, note, location_renamed]
  simp only [renamed, Cursor.skipUntil_renamed, Cursor.skipped_renamed, Cursor.current_renamed,
    r.location_token, List.map_cons, Action.renamed]

theorem errors_renamed : (s.renamed r).errors = s.errors.map (Finding.renamed r) := by
  unfold errors renamed
  rw [← List.map_reverse, List.filterMap_map, List.map_filterMap]
  exact congrArg (List.filterMap · _) (funext fun a => a.finding?_renamed r)

end State

/-- A run never parts from the one over other tokens. -/
def renamedRuns : Lockstep where
  names := r
  InStep s s' := s' = s.renamed r
  Apart _ _ := False
  current_eq := by
    rintro s _ rfl
    exact s.current_renamed r
  issued_eq := by
    rintro s _ rfl
    rfl
  atDeclaration_iff := by
    rintro s _ rfl
    unfold AtDeclaration State.kind Cursor.kind
    rw [show (s.renamed r).cursor = s.cursor.renamed r from rfl, Cursor.current_renamed,
      Cursor.next_renamed, r.kind_token, r.kind_token]
  tick := by
    rintro s _ rfl
    rfl
  fail n := by
    rintro rfl
    exact State.fail_renamed r _ n
  bump := by
    rintro s _ rfl _
    exact .inl (s.bump_renamed r)
  discard := by
    rintro s _ rfl _
    exact .inl (s.discard_renamed r)
  synchronize n extra := by
    rintro rfl
    exact .inl (State.synchronize_renamed r _ n extra)
  later h _ _ := h

/-- Over other tokens a stream is read to the same tree, with the same errors. -/
theorem parse_renamed {tokens : List Token} (hne : tokens ≠ [])
    (hend : ∀ place, r.token (.endOfFile place) = .endOfFile (r.place place)) :
    (parse (tokens.map r.token)).program = (parse tokens).program.renamed r ∧
      (parse (tokens.map r.token)).final = (parse tokens).final.renamed r := by
  have hstart : State.ofTokens (tokens.map r.token) = (State.ofTokens tokens).renamed r :=
    congrArg (State.mk · false 0 []) (Cursor.ofTokens_renamed r hne hend)
  have hagree := agree_program (L := renamedRuns r) hstart fun ht _ =>
    Lockstep.follow_of (.inl (by rw [show _ = _ from ht]; exact State.bump_renamed r _))
  rw [programFrom_ofTokens, programFrom_ofTokens] at hagree
  exact hagree.resolve_right not_false

end Parser

end PalChecker
