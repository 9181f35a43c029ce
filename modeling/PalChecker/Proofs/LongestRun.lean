import Mathlib.Data.List.TakeWhile

/-!
# The longest run at the front of a list

An element that a run does not take ends it, whatever follows.
-/

namespace PalChecker

variable {α : Type} {p : α → Bool} {a b : List α} {stop : α}

theorem takeWhile_append_stop (hstop : p stop = false) (a b : List α) :
    (a ++ stop :: b).takeWhile p = a.takeWhile p := by
  induction a with
  | nil => exact List.takeWhile_cons_of_neg (Bool.eq_false_iff.mp hstop)
  | cons x a ih => rw [List.cons_append, List.takeWhile_cons, List.takeWhile_cons, ih]

theorem dropWhile_append_stop (hstop : p stop = false) (a b : List α) :
    (a ++ stop :: b).dropWhile p = a.dropWhile p ++ stop :: b := by
  induction a with
  | nil => exact List.dropWhile_cons_of_neg (Bool.eq_false_iff.mp hstop)
  | cons x a ih =>
    rw [List.cons_append, List.dropWhile_cons, List.dropWhile_cons, ih]
    split <;> rfl

theorem run_append_stop (ha : ∀ x ∈ a, p x = true) (hstop : p stop = false) (b : List α) :
    (a ++ stop :: b).takeWhile p = a ∧ (a ++ stop :: b).dropWhile p = stop :: b := by
  rw [takeWhile_append_stop hstop, dropWhile_append_stop hstop, List.takeWhile_eq_self_iff.mpr ha,
    List.dropWhile_eq_nil_iff.mpr ha]
  exact ⟨rfl, rfl⟩

theorem run_append (ha : ∀ x ∈ a, p x = true) (hb : ∀ x, b.head? = some x → p x = false) :
    (a ++ b).takeWhile p = a ∧ (a ++ b).dropWhile p = b := by
  cases b with
  | nil =>
    rw [List.append_nil]
    exact ⟨List.takeWhile_eq_self_iff.mpr ha, List.dropWhile_eq_nil_iff.mpr ha⟩
  | cons stop b => exact run_append_stop ha (hb stop rfl) b

theorem length_le_takeWhile (h : a <+: b) (ha : ∀ x ∈ a, p x = true) :
    a.length ≤ (b.takeWhile p).length := by
  obtain ⟨rest, rfl⟩ := h
  rw [List.takeWhile_append_of_pos ha, List.length_append]
  exact Nat.le_add_right _ _

end PalChecker
