import PalChecker.Proofs.Parser.Progress
import PalChecker.Proofs.Parser.Runs

/-!
# What became of each token

A journal tells of each token passed whether it was consumed or dropped, and of each error at which place
of the stream it was reported.
-/

namespace PalChecker.Parser

inductive Fate where
  | consumed | dropped
  deriving DecidableEq, Repr

/-- The tokens that an action passes. -/
def Action.passed : Action → List (Token × Fate)
  | consumed token => [(token, .consumed)]
  | discarded token => [(token, .dropped)]
  | skipped _ tokens _ _ => tokens.map (·, .dropped)
  | reported .. | suppressed .. => []

namespace State

/-- What was passed in the course of a journal, whose latest action comes first. -/
def passedIn : List Action → List (Token × Fate)
  | [] => []
  | a :: earlier => passedIn earlier ++ a.passed

/-- The errors of a journal, each with the number of tokens passed before it. -/
def locatedIn : List Action → List (Nat × Finding)
  | [] => []
  | a :: earlier => locatedIn earlier ++ a.finding?.toList.map ((passedIn earlier).length, ·)

/-- The tokens passed so far, each with what became of it. -/
def passed (s : State) : List (Token × Fate) := passedIn s.journal

def fates (s : State) : List Fate := s.passed.map Prod.snd

/-- The errors reported so far, each with the place of the token that it blames. -/
def located (s : State) : List (Nat × Finding) := locatedIn s.journal

theorem errors_located (s : State) : s.located.map Prod.snd = s.errors := by
  have h (journal : List Action) :
      (locatedIn journal).map Prod.snd = journal.reverse.filterMap Action.finding? := by
    induction journal with
    | nil => rfl
    | cons a earlier ih =>
      rw [locatedIn, List.map_append, ih, List.reverse_cons, List.filterMap_append]
      cases ha : a.finding? <;> simp [ha]
  exact h s.journal

/-! ## What each move adds -/

theorem passed_bump (s : State) : s.bump.passed = s.passed ++ [(s.current, .consumed)] := rfl

theorem located_bump (s : State) : s.bump.located = s.located := List.append_nil _

theorem passed_discard (s : State) : s.discard.passed = s.passed ++ [(s.current, .dropped)] := rfl

theorem located_discard (s : State) : s.discard.located = s.located := List.append_nil _

theorem passed_synchronize (n : Nonterminal) (extra : List TokenKind) (s : State) :
    (s.synchronize n extra).passed =
      s.passed ++ (s.cursor.skipped (n.syncSet ++ extra)).map (·, .dropped) := rfl

theorem located_synchronize (n : Nonterminal) (extra : List TokenKind) (s : State) :
    (s.synchronize n extra).located = s.located := List.append_nil _

theorem passed_fail (n : Nonterminal) (s : State) : (s.fail n).passed = s.passed := by
  unfold fail
  split <;> exact List.append_nil _

theorem located_fail_of_recovering {s : State} (n : Nonterminal) (h : s.recovering = true) :
    (s.fail n).located = s.located := by
  rw [fail_of_recovering n h]
  exact List.append_nil _

theorem located_fail_of_not_recovering {s : State} (n : Nonterminal) (h : s.recovering = false) :
    (s.fail n).located =
      s.located ++ [(s.passed.length, ⟨s.nextSeq, .syntaxError n s.current⟩)] := by
  rw [fail_of_not_recovering n h]
  rfl

/-! ## The tokens that were consumed -/

def taken (s : State) : List Token := (s.passed.filter fun x => x.2 = .consumed).map Prod.fst

theorem taken_bump (s : State) : s.bump.taken = s.taken ++ [s.current] := by
  unfold taken
  rw [passed_bump, List.filter_append, List.map_append]
  rfl

theorem taken_fail (n : Nonterminal) (s : State) : (s.fail n).taken = s.taken := by
  unfold taken
  rw [passed_fail]

theorem taken_discard (s : State) : s.discard.taken = s.taken := by
  unfold taken
  rw [passed_discard, List.filter_append, List.map_append]
  exact List.append_nil _

theorem taken_synchronize (n : Nonterminal) (extra : List TokenKind) (s : State) :
    (s.synchronize n extra).taken = s.taken := by
  unfold taken
  rw [passed_synchronize, List.filter_append, List.map_append]
  have hdropped : ((s.cursor.skipped (n.syncSet ++ extra)).map (·, Fate.dropped)).filter
      (fun x => x.2 = .consumed) = [] := by
    refine List.filter_eq_nil_iff.mpr fun x hx => ?_
    obtain ⟨_, -, rfl⟩ := List.mem_map.mp hx
    exact fun hconsumed => nomatch of_decide_eq_true hconsumed
  rw [hdropped]
  exact List.append_nil _

/-! ## What is added later -/

theorem passedIn_append (later earlier : List Action) :
    passedIn (later ++ earlier) = passedIn earlier ++ passedIn later := by
  induction later with
  | nil => rw [List.nil_append, passedIn, List.append_nil]
  | cons a later ih => rw [List.cons_append, passedIn, ih, passedIn, List.append_assoc]

/-- What is reported later blames tokens that were not passed yet. -/
theorem Precedes.located {s t : State} (h : s.Precedes t) :
    ∃ more, t.located = s.located ++ more ∧ ∀ e ∈ more, s.passed.length ≤ e.1 := by
  obtain ⟨later, hlater⟩ := h.1
  unfold State.located State.passed
  rw [← hlater]
  clear hlater
  induction later with
  | nil => exact ⟨[], (List.append_nil _).symm, fun _ he => absurd he List.not_mem_nil⟩
  | cons a later ih =>
    obtain ⟨more, hmore, hplaces⟩ := ih
    refine ⟨more ++ a.finding?.toList.map ((passedIn (later ++ s.journal)).length, ·), ?_, ?_⟩
    · rw [List.cons_append, locatedIn, hmore, List.append_assoc]
    · -- The latest error is at the place where the passed tokens end.
      rw [List.forall_mem_append, List.forall_mem_map]
      refine ⟨hplaces, fun _ _ => ?_⟩
      rw [passedIn_append, List.length_append]
      exact Nat.le_add_right _ _

theorem Precedes.length_passed {s t : State} (h : s.Precedes t) :
    s.passed.length ≤ t.passed.length := by
  obtain ⟨later, hlater⟩ := h.1
  unfold State.passed
  rw [← hlater, passedIn_append, List.length_append]
  exact Nat.le_add_right _ _

/-! ## What skipping drops -/

theorem skipped_eq (stops : List TokenKind) (s : State) :
    s.cursor.skipped stops = s.upcoming.takeWhile fun t => ¬Cursor.Halts stops t := by
  have hclosing : Cursor.Halts stops s.cursor.closing := .inl s.cursor.closing_kind
  rw [upcoming, takeWhile_append_stop (by simpa using hclosing)]
  rfl

theorem skipped_of_append {stops : List TokenKind} {s : State} {v rest : List Token} {x : Token}
    (h : s.upcoming = v ++ x :: rest) (hx : Cursor.Halts stops x) :
    s.cursor.skipped stops = v.takeWhile fun t => ¬Cursor.Halts stops t := by
  rw [skipped_eq, h, takeWhile_append_stop (by simpa using hx)]

theorem upcoming_skipped_of_append {n : Nonterminal} {extra : List TokenKind} {s : State}
    {v rest : List Token} {x : Token} (h : s.upcoming = v ++ x :: rest)
    (hx : Cursor.Halts (n.syncSet ++ extra) x) :
    (s.synchronize n extra).upcoming =
      (v.dropWhile fun t => ¬Cursor.Halts (n.syncSet ++ extra) t) ++ x :: rest := by
  rw [upcoming_synchronize_eq, h, dropWhile_append_stop (by simpa using hx)]

theorem length_synchronize (n : Nonterminal) (extra : List TokenKind) (s : State) :
    (s.synchronize n extra).passed.length =
      s.passed.length + (s.cursor.skipped (n.syncSet ++ extra)).length := by
  rw [passed_synchronize, List.length_append, List.length_map]

theorem length_synchronize_of_append {n : Nonterminal} {extra : List TokenKind} {s : State}
    {v rest : List Token} {x : Token} (h : s.upcoming = v ++ x :: rest)
    (hx : Cursor.Halts (n.syncSet ++ extra) x) :
    (s.synchronize n extra).passed.length +
        (v.dropWhile fun t => ¬Cursor.Halts (n.syncSet ++ extra) t).length =
      s.passed.length + v.length := by
  rw [length_synchronize, skipped_of_append h hx, Nat.add_assoc, ← List.length_append,
    List.takeWhile_append_dropWhile]

theorem journal_synchronize (n : Nonterminal) (extra : List TokenKind) (s : State) :
    (s.synchronize n extra).journal =
      .skipped n (s.cursor.skipped (n.syncSet ++ extra)) s.location
        (s.synchronize n extra).location :: s.journal := rfl

/-! ## Two states that did the same -/

structure SameHistory (s s' : State) : Prop where
  journal_eq : s'.journal = s.journal
  recovering_eq : s'.recovering = s.recovering
  issued_eq : s'.issued = s.issued

namespace SameHistory

variable {s s' : State}

theorem nextSeq_eq (h : s.SameHistory s') : s'.nextSeq = s.nextSeq := nextSeq_congr h.issued_eq

theorem tick (h : s.SameHistory s') : s.tick.SameHistory s'.tick :=
  ⟨h.journal_eq, h.recovering_eq, congrArg (· + 1) h.issued_eq⟩

theorem bump (h : s.SameHistory s') (hcurrent : s'.current = s.current) :
    s.bump.SameHistory s'.bump where
  journal_eq := List.cons_eq_cons.mpr ⟨congrArg Action.consumed hcurrent, h.journal_eq⟩
  recovering_eq := rfl
  issued_eq := h.issued_eq

theorem discard (h : s.SameHistory s') (hcurrent : s'.current = s.current) :
    s.discard.SameHistory s'.discard where
  journal_eq := List.cons_eq_cons.mpr ⟨congrArg Action.discarded hcurrent, h.journal_eq⟩
  recovering_eq := h.recovering_eq
  issued_eq := h.issued_eq

theorem fail (h : s.SameHistory s') (hcurrent : s'.current = s.current) (n : Nonterminal) :
    (s.fail n).SameHistory (s'.fail n) := by
  cases hs : s.recovering with
  | true =>
    have hlocation : s'.location = s.location := congrArg Token.location hcurrent
    rw [fail_of_recovering n hs, fail_of_recovering n (h.recovering_eq.trans hs), hlocation]
    exact ⟨congrArg (List.cons _) h.journal_eq, h.recovering_eq, h.issued_eq⟩
  | false =>
    rw [fail_of_not_recovering n hs, fail_of_not_recovering n (h.recovering_eq.trans hs), hcurrent,
      h.nextSeq_eq]
    exact ⟨congrArg (List.cons _) h.journal_eq, rfl, h.tick.issued_eq⟩

theorem synchronize (h : s.SameHistory s') {n : Nonterminal} {extra : List TokenKind}
    {v rest rest' : List Token} {x : Token} (hs : s.upcoming = v ++ x :: rest)
    (hs' : s'.upcoming = v ++ x :: rest') (hx : Cursor.Halts (n.syncSet ++ extra) x) :
    (s.synchronize n extra).SameHistory (s'.synchronize n extra) where
  journal_eq := by
    have hstart : s'.location = s.location := congrArg Token.location (current_eq_of_append hs hs')
    have hskipped := (skipped_of_append hs' hx).trans (skipped_of_append hs hx).symm
    -- Both stop before the same token.
    have hfinish : (s'.synchronize n extra).location = (s.synchronize n extra).location :=
      congrArg Token.location
        (current_eq_of_append (upcoming_skipped_of_append hs hx) (upcoming_skipped_of_append hs' hx))
    rw [journal_synchronize, journal_synchronize, hskipped, hstart, hfinish, h.journal_eq]
  recovering_eq := h.recovering_eq
  issued_eq := h.issued_eq

theorem errors_eq (h : s.SameHistory s') : s'.errors = s.errors := by
  unfold errors
  rw [h.journal_eq]

theorem passed_eq (h : s.SameHistory s') : s'.passed = s.passed := congrArg passedIn h.journal_eq

theorem located_eq (h : s.SameHistory s') : s'.located = s.located := congrArg locatedIn h.journal_eq

end SameHistory

/-! ## The journal and the stream -/

theorem stream_cursor (s : State) : s.cursor.stream = s.cursor.passed.reverse ++ s.upcoming :=
  List.append_assoc _ _ _

/-- The journal tells of the tokens behind the cursor, and each error of the token at its place. -/
structure Accurate (stream : List Token) (s : State) : Prop where
  stream_eq : s.cursor.stream = stream
  passed_eq : s.passed.map Prod.fst = s.cursor.passed.reverse
  blamed : ∀ e ∈ s.located, stream[e.1]? = some e.2.diagnostic.token

namespace Accurate

variable {stream : List Token} {s t : State}

theorem length_passed (h : s.Accurate stream) : s.passed.length = s.cursor.position := by
  have hlength := congrArg List.length h.passed_eq
  rwa [List.length_map, List.length_reverse] at hlength

theorem stream_split (h : s.Accurate stream) : stream = s.passed.map Prod.fst ++ s.upcoming := by
  rw [← h.stream_eq, stream_cursor, h.passed_eq]

theorem current_eq (h : s.Accurate stream) : stream[s.passed.length]? = some s.current := by
  obtain ⟨rest, hrest⟩ := s.exists_upcoming
  rw [h.stream_split, hrest, List.getElem?_append_right (Nat.le_of_eq (List.length_map _)),
    List.length_map, Nat.sub_self]
  rfl

theorem move (h : s.Accurate stream) (hmove : s.Move t) : t.Accurate stream := by
  cases hmove with
  | consume hkind =>
    refine ⟨(s.cursor.stream_advance).trans h.stream_eq, ?_, ?_⟩
    · rw [passed_bump, List.map_append, h.passed_eq, cursor_bump, Cursor.passed_advance hkind,
        List.reverse_cons]
      rfl
    · rw [located_bump]
      exact h.blamed
  | fail n =>
    refine ⟨by rw [cursor_fail, h.stream_eq], by rw [passed_fail, cursor_fail, h.passed_eq], ?_⟩
    cases hs : s.recovering with
    | true =>
      rw [located_fail_of_recovering n hs]
      exact h.blamed
    | false =>
      rw [located_fail_of_not_recovering n hs, List.forall_mem_append, List.forall_mem_singleton]
      exact ⟨h.blamed, h.current_eq⟩
  | discard hkind _ =>
    refine ⟨(s.cursor.stream_advance).trans h.stream_eq, ?_, ?_⟩
    · have hpassed : s.discard.cursor.passed = s.current :: s.cursor.passed := Cursor.passed_advance hkind
      rw [passed_discard, List.map_append, h.passed_eq, hpassed, List.reverse_cons]
      rfl
    · rw [located_discard]
      exact h.blamed
  | skip n extra _ =>
    -- The one action records every token that the skip steps over.
    refine ⟨(s.cursor.stream_skipUntil _).trans h.stream_eq, ?_, ?_⟩
    · rw [passed_synchronize, List.map_append, h.passed_eq, List.map_map]
      simp [synchronize, Cursor.skipUntil, Function.comp_def]
    · rw [located_synchronize]
      exact h.blamed

end Accurate

theorem accurate_ofTokens (tokens : List Token) :
    (State.ofTokens tokens).Accurate (Cursor.ofTokens tokens).stream where
  stream_eq := rfl
  passed_eq := congrArg List.reverse (Cursor.passed_ofTokens tokens).symm
  blamed _ h := absurd h List.not_mem_nil

end State

theorem Builds.accurate {stream : List Token} {s t : State} {nodes : List Node} (h : Builds s nodes t)
    (hs : s.Accurate stream) : t.Accurate stream :=
  h.invariant (fun hs hmove => hs.move hmove) (fun hs => ⟨hs.1, hs.2, hs.3⟩) hs

namespace Outcome

/-- Each token that was passed, and what became of it. -/
def passed (o : Outcome) : List (Token × Fate) := o.final.passed

def fates (o : Outcome) : List Fate := o.final.fates

/-- The errors, each with the place of the token that it blames. -/
def located (o : Outcome) : List (Nat × Finding) := o.final.located

/-- The errors of a run over `stream` are located. -/
structure LocatesErrors (stream : List Token) (o : Outcome) : Prop where
  errors : o.located.map Prod.snd = o.errors
  blamed : ∀ e ∈ o.located, stream[e.1]? = some e.2.diagnostic.token

end Outcome

theorem accurate_parse (tokens : List Token) :
    (parse tokens).final.Accurate (Cursor.ofTokens tokens).stream :=
  (builds_parse tokens).accurate (State.accurate_ofTokens tokens)

theorem locatesErrors_parse (tokens : List Token) :
    (parse tokens).LocatesErrors (Cursor.ofTokens tokens).stream where
  errors := (parse tokens).final.errors_located
  blamed := (accurate_parse tokens).blamed

end PalChecker.Parser
