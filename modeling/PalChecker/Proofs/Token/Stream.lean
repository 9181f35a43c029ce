import PalChecker.Proofs.LongestRun
import PalChecker.Token.Cursor

/-!
# The tokens before the end of file

A stream counts up to its first end of file, and whatever follows is not part of the program.
-/

namespace PalChecker

namespace Token

/-- The tokens before the first end of file, or all of them if there is none. -/
def beforeEnd (tokens : List Token) : List Token := tokens.takeWhile fun t => t.kind ≠ .endOfFile

theorem ne_endOfFile_of_mem_beforeEnd {tokens : List Token} {t : Token} (h : t ∈ beforeEnd tokens) :
    t.kind ≠ .endOfFile := of_decide_eq_true (List.all_eq_true.mp List.all_takeWhile t h)

theorem beforeEnd_append_cons {u : List Token} (hu : ∀ t ∈ u, t.kind ≠ .endOfFile) {x : Token}
    (hx : x.kind = .endOfFile) (rest : List Token) : beforeEnd (u ++ x :: rest) = u :=
  (run_append_stop (fun t ht => decide_eq_true (hu t ht)) (by simp [hx]) rest).1

theorem beforeEnd_append_closing (tokens : List Token) {x : Token} (hx : x.kind = .endOfFile) :
    beforeEnd (tokens ++ [x]) = beforeEnd tokens :=
  takeWhile_append_stop (by simp [hx]) tokens []

theorem beforeEnd_eq_self {u : List Token} (hu : ∀ t ∈ u, t.kind ≠ .endOfFile) : beforeEnd u = u :=
  (beforeEnd_append_closing u (endOfFile_kind .start)).symm.trans
    (beforeEnd_append_cons hu (endOfFile_kind .start) [])

end Token

namespace Cursor

theorem passed_advance {c : Cursor} (h : c.kind ≠ .endOfFile) :
    c.advance.passed = c.current :: c.passed := by
  obtain ⟨first, more, hcons⟩ :=
    List.exists_cons_of_ne_nil (List.ne_nil_of_length_pos (c.remaining_pos h))
  simp only [current, advance, hcons, List.headD_cons]

theorem ofTokens_concat_of_endOfFile (before : List Token) {last : Token}
    (h : last.kind = .endOfFile) : ofTokens (before ++ [last]) = ⟨[], before, last, h⟩ := by
  simp only [ofTokens, List.getLast?_concat, h, ↓reduceDIte, List.dropLast_concat]

theorem ofTokens_concat_of_ne (before : List Token) {last : Token} (h : last.kind ≠ .endOfFile) :
    ofTokens (before ++ [last]) = ⟨[], before ++ [last], .endOfFile last.location, rfl⟩ := by
  simp only [ofTokens, List.getLast?_concat, h, ↓reduceDIte, closingFor, Option.elim_some]

theorem passed_ofTokens (tokens : List Token) : (ofTokens tokens).passed = [] := by
  unfold ofTokens
  split
  · split <;> rfl
  · rfl

theorem stream_ofTokens (tokens : List Token) :
    (ofTokens tokens).ahead ++ [(ofTokens tokens).closing] = tokens ∨
      (ofTokens tokens).ahead = tokens := by
  unfold ofTokens
  split
  · rename_i last hlast
    split
    · obtain ⟨before, rfl⟩ := List.getLast?_eq_some_iff.mp hlast
      left
      rw [List.dropLast_concat]
    · exact Or.inr rfl
  · exact Or.inr rfl

theorem beforeEnd_ofTokens (tokens : List Token) :
    Token.beforeEnd ((ofTokens tokens).ahead ++ [(ofTokens tokens).closing]) =
      Token.beforeEnd tokens := by
  rcases stream_ofTokens tokens with h | h
  · rw [h]
  · rw [h, Token.beforeEnd_append_closing tokens (ofTokens tokens).closing_kind]

theorem exists_endOfFile_ofTokens (tokens : List Token) :
    ∃ x rest, x.kind = .endOfFile ∧
      (ofTokens tokens).ahead ++ [(ofTokens tokens).closing] =
        Token.beforeEnd tokens ++ x :: rest := by
  rw [← beforeEnd_ofTokens tokens]
  generalize (ofTokens tokens).ahead = ahead
  have hclosing := (ofTokens tokens).closing_kind
  generalize (ofTokens tokens).closing = closing at hclosing
  -- The first end of file is among the tokens ahead, or it is the closing one.
  induction ahead with
  | nil => exact ⟨closing, [], hclosing, by simp [Token.beforeEnd, hclosing]⟩
  | cons t ahead ih =>
    by_cases ht : t.kind = .endOfFile
    · exact ⟨t, ahead ++ [closing], ht, by simp [Token.beforeEnd, ht]⟩
    · obtain ⟨x, rest, hx, hstream⟩ := ih
      refine ⟨x, rest, hx, ?_⟩
      have hbefore : Token.beforeEnd (t :: ahead ++ [closing]) =
          t :: Token.beforeEnd (ahead ++ [closing]) := List.takeWhile_cons_of_pos (by simp [ht])
      rw [hbefore, List.cons_append, List.cons_append, ← hstream]

end Cursor

end PalChecker
