import PalChecker.Parser.Program

/-!
# What each move of a parse changes

Only reporting adds to the errors, only consuming ends recovery, and only reporting and completing a
node hand out a number.
-/

namespace PalChecker.Parser

namespace State

/-- The errors reported so far, in the order of reporting. -/
def errors (s : State) : List Finding := s.journal.reverse.filterMap Action.finding?

theorem errors_note (a : Action) (s : State) :
    (s.note a).errors = s.errors ++ a.finding?.toList := by
  unfold errors note
  rw [List.reverse_cons, List.filterMap_append]
  cases h : a.finding? <;> simp [h]

/-! ## Completing a node -/

@[simp] theorem errors_tick (s : State) : s.tick.errors = s.errors := rfl

theorem nextSeq_congr {s t : State} (h : t.issued = s.issued) : t.nextSeq = s.nextSeq :=
  congrArg SeqNumber.ofNat h

/-! ## Consuming and dropping -/

@[simp] theorem errors_bump (s : State) : s.bump.errors = s.errors := by
  change (s.note (.consumed s.current)).errors = s.errors
  rw [errors_note]
  exact List.append_nil _

@[simp] theorem cursor_bump (s : State) : s.bump.cursor = s.cursor.advance := rfl

@[simp] theorem recovering_bump (s : State) : s.bump.recovering = false := rfl

@[simp] theorem issued_bump (s : State) : s.bump.issued = s.issued := rfl

@[simp] theorem errors_discard (s : State) : s.discard.errors = s.errors := by
  change (s.note (.discarded s.current)).errors = s.errors
  rw [errors_note]
  exact List.append_nil _

@[simp] theorem errors_synchronize (n : Nonterminal) (extra : List TokenKind) (s : State) :
    (s.synchronize n extra).errors = s.errors := by
  unfold synchronize
  exact (errors_note _ s).trans (List.append_nil _)

@[simp] theorem issued_synchronize (n : Nonterminal) (extra : List TokenKind) (s : State) :
    (s.synchronize n extra).issued = s.issued := rfl

/-! ## Reporting -/

theorem recovering_fail (n : Nonterminal) (s : State) : (s.fail n).recovering = true := by
  unfold fail
  split
  · assumption
  · rfl

theorem cursor_fail (n : Nonterminal) (s : State) : (s.fail n).cursor = s.cursor := by
  unfold fail
  split <;> rfl

theorem kind_fail (n : Nonterminal) (s : State) : (s.fail n).kind = s.kind :=
  congrArg Cursor.kind (s.cursor_fail n)

theorem fail_of_recovering {s : State} (n : Nonterminal) (h : s.recovering = true) :
    s.fail n = s.note (.suppressed n s.location) := if_pos h

theorem errors_fail_of_recovering {s : State} (n : Nonterminal) (h : s.recovering = true) :
    (s.fail n).errors = s.errors := by
  rw [fail_of_recovering n h, errors_note]
  exact List.append_nil _

theorem issued_fail_of_recovering {s : State} (n : Nonterminal) (h : s.recovering = true) :
    (s.fail n).issued = s.issued := by
  rw [fail_of_recovering n h]
  rfl

theorem fail_of_not_recovering {s : State} (n : Nonterminal) (h : s.recovering = false) :
    s.fail n =
      { s.tick.note (.reported s.nextSeq n s.current) with recovering := true } := by
  unfold fail
  rw [h]
  rfl

theorem errors_fail_of_not_recovering {s : State} (n : Nonterminal) (h : s.recovering = false) :
    (s.fail n).errors = s.errors ++ [⟨s.nextSeq, .syntaxError n s.current⟩] := by
  rw [fail_of_not_recovering n h]
  exact errors_note _ s.tick

theorem issued_fail_of_not_recovering {s : State} (n : Nonterminal) (h : s.recovering = false) :
    (s.fail n).issued = s.issued + 1 := by
  rw [fail_of_not_recovering n h]
  rfl

end State

/-! ## Consuming or recovering -/

def Parsed.result {α : Type} {s : State} (p : Parsed α s) : α × State := (p.value, p.state)

@[simp] theorem Parsed.result_since {α : Type} {s t : State} (p : Parsed α t)
    (h : t.remaining ≤ s.remaining) : (p.since h).result = p.result := rfl

namespace State

/-- Where reading resumes if none of `kinds` is found at `s`. -/
abbrev recovered (n : Nonterminal) (kinds : List TokenKind) (s : State) : State :=
  (s.fail n).synchronize n kinds

theorem eatAny_of_mem {kinds : List TokenKind} {s : State} (h : s.kind ∈ kinds) :
    (s.eatAny kinds).result = (some s.current, s.bump) := by
  unfold eatAny Parsed.result
  rw [if_pos h]

theorem eatAny_of_not_mem {kinds : List TokenKind} {s : State} (h : s.kind ∉ kinds) :
    (s.eatAny kinds).result = (none, s) := by
  unfold eatAny Parsed.result
  rw [if_neg h]

theorem expectAny_of_mem {kinds : List TokenKind} {s : State} (n : Nonterminal)
    (h : s.kind ∈ kinds) : (s.expectAny kinds n).result = (some s.current, s.bump) := by
  unfold expectAny Parsed.result
  rw [if_pos h]

theorem expectAny_of_not_mem {kinds : List TokenKind} {s : State} (n : Nonterminal)
    (h : s.kind ∉ kinds) :
    (s.expectAny kinds n).result = ((s.recovered n kinds).eatAny kinds).result := by
  unfold expectAny
  rw [if_neg h, Parsed.result_since]

section

variable {P : Option Token → State → Prop} {kinds : List TokenKind} {s : State}

theorem eatAny_rule (present : s.kind ∈ kinds → P (some s.current) s.bump)
    (missing : s.kind ∉ kinds → P none s) : P (s.eatAny kinds).value (s.eatAny kinds).state := by
  unfold eatAny
  split
  case isTrue h => exact present h
  case isFalse h => exact missing h

/-- A token of the kinds is consumed at once, or where reading resumes, or it is missing there too. -/
theorem expectAny_rule (n : Nonterminal) (present : s.kind ∈ kinds → P (some s.current) s.bump)
    (resumed : (s.recovered n kinds).kind ∈ kinds →
      P (some (s.recovered n kinds).current) (s.recovered n kinds).bump)
    (missing : (s.recovered n kinds).kind ∉ kinds → P none (s.recovered n kinds)) :
    P (s.expectAny kinds n).value (s.expectAny kinds n).state := by
  unfold expectAny
  split
  case isTrue h => exact present h
  case isFalse => exact eatAny_rule resumed missing

end

end State

end PalChecker.Parser
