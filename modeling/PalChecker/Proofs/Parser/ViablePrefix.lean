import PalChecker.Proofs.Parser.MirroredPrograms

/-!
# Where the first error lies

The parser reports its first error at the first token with which the stream stops being the beginning of
a sentence. It reports one token early in one place: there it takes a name for a target, since an equals
sign follows, where only the name of a group can stand.
-/

namespace PalChecker.Grammar

/-- Some sentence, with the end of file behind it, begins with `u`. -/
def Viable (u : List TokenKind) : Prop :=
  ∃ w, Construct.program.Derives w ∧ u <+: w ++ [.endOfFile]

theorem Viable.of_append {u v : List TokenKind} (h : Construct.program.Derives (u ++ v)) : Viable u :=
  ⟨u ++ v, h, (List.prefix_append u v).trans (List.prefix_append _ _)⟩

theorem ne_endOfFile_of_derives {w : List TokenKind} (h : Construct.program.Derives w) :
    ∀ k ∈ w, k ≠ .endOfFile := by
  have hkinds : (w.map Token.fixed).map Token.kind = w := by
    rw [List.map_map]
    exact List.map_id' w
  rw [← hkinds] at h
  obtain ⟨p, hp, hspelling⟩ := (derives_iff_exists_canonical _).mp h
  intro k hk
  obtain ⟨t, ht, rfl⟩ := List.mem_map.mp (hkinds.symm ▸ hk)
  have hplain := p.isPlain_spelling hp t.essence (hspelling ▸ List.mem_map_of_mem ht)
  exact t.essence_kind ▸ hplain.ne_endOfFile

end PalChecker.Grammar

namespace PalChecker.Parser

open Grammar (Rule Derives Construct Viable)

/-! ## The first error -/

/-- The first thing done after exactly `u` was consumed was to report `found`. -/
def FirstReports (tokens u : List Token) (seq : SeqNumber) (n : Nonterminal) (found : Token) : Prop :=
  ∃ more, (parse tokens).actions = u.map .consumed ++ .reported seq n found :: more

theorem firstReports_of_failsAfter {tokens u : List Token}
    (h : (State.ofTokens tokens).FailsAfter u (parse tokens).final) :
    ∃ seq n found rest, (Cursor.ofTokens tokens).stream = u ++ found :: rest ∧
      FirstReports tokens u seq n found := by
  obtain ⟨m, n, hpasses, hfail⟩ := h
  obtain ⟨rest, hrest⟩ := m.exists_upcoming
  refine ⟨m.nextSeq, n, m.current, rest, ?_, ?_⟩
  · rw [← State.upcoming_ofTokens, hpasses.upcoming, hrest]
  · rw [State.fail_of_not_recovering n (hpasses.not_recovering rfl)] at hfail
    -- Nothing but consumed tokens is recorded before the error.
    obtain ⟨more, hmore⟩ := hfail.1
    have hjournal : m.journal = (u.map Action.consumed).reverse :=
      hpasses.journal.trans (List.append_nil _)
    refine ⟨more.reverse, ?_⟩
    unfold Outcome.actions
    rw [← hmore]
    simp only [State.note, State.tick, hjournal, List.reverse_append, List.reverse_cons,
      List.reverse_reverse, List.append_assoc, List.singleton_append]

theorem FirstReports.head?_errors {tokens u : List Token} {seq : SeqNumber} {n : Nonterminal} {found : Token}
    (h : FirstReports tokens u seq n found) :
    (parse tokens).errors.head? = some ⟨seq, .syntaxError n found⟩ := by
  obtain ⟨more, hmore⟩ := h
  have hnone : (u.map Action.consumed).filterMap Action.finding? = [] := by
    rw [List.filterMap_eq_nil_iff]
    intro a ha
    obtain ⟨x, -, rfl⟩ := List.mem_map.mp ha
    rfl
  unfold Outcome.errors
  rw [hmore, List.filterMap_append, hnone]
  rfl

theorem FirstReports.unique {tokens u u' : List Token} {seq seq' : SeqNumber} {n n' : Nonterminal}
    {found found' : Token} (h : FirstReports tokens u seq n found)
    (h' : FirstReports tokens u' seq' n' found') : u = u' ∧ found = found' := by
  obtain ⟨more, hmore⟩ := h
  obtain ⟨more', hmore'⟩ := h'
  have hsame := hmore.symm.trans hmore'
  clear hmore hmore'
  induction u generalizing u' with
  | nil =>
    cases u' with
    | nil =>
      cases hsame
      exact ⟨rfl, rfl⟩
    | cons => cases hsame
  | cons x u ih =>
    cases u' with
    | nil => cases hsame
    | cons x' u' =>
      obtain ⟨hx, hrest⟩ := List.cons.inj hsame
      cases hx
      exact (ih hrest).imp_left (congrArg (List.cons x))

/-! ## What a sentence would have done -/

theorem clean_of_derives {tokens : List Token}
    (h : Construct.program.Derives ((Token.beforeEnd tokens).map Token.kind)) :
    (parse tokens).errors = [] := by
  obtain ⟨p, hp, hspelling⟩ := (Grammar.derives_iff_exists_canonical _).mp h
  exact (clean_of_spelledBy hp hspelling.symm).1

/-- A stream that is read without an error does not go on like one whose first error lies at `found`. -/
theorem not_shared_with_clean {tokens clean u rest rest' : List Token} {found : Token} {seq : SeqNumber}
    {n : Nonterminal} (hclean : (parse clean).errors = [])
    (hcleanStream : (Cursor.ofTokens clean).stream = u ++ found :: rest')
    (hstream : (Cursor.ofTokens tokens).stream = u ++ found :: rest)
    (hlook : Derives opening (u.map Token.kind) →
      (Declares (found :: rest') ↔ Declares (found :: rest))) :
    ¬FirstReports tokens u seq n found := by
  rintro ⟨more, hmore⟩
  have hrun := mirrored_program (.ofTokens clean) (.ofTokens tokens)
  rw [programFrom_ofTokens, programFrom_ofTokens] at hrun
  have hfork : lookingOn opening u (found :: rest') (found :: rest) := ⟨⟨found, rest', rest, rfl, rfl⟩, hlook⟩
  have hfollows := hrun.follows rfl hclean hfork ((State.upcoming_ofTokens _).trans hcleanStream)
    ((State.upcoming_ofTokens _).trans hstream)
  cases hfollows with
  | @repeats w _ _ _ hsecond _ =>
    -- The whole run only consumes, so nothing is reported.
    have hjournal : (parse tokens).actions = w.map .consumed := by
      have hjournal : (parse tokens).final.journal = (w.map Action.consumed).reverse :=
        hsecond.journal.trans (List.append_nil _)
      unfold Outcome.actions
      rw [hjournal, List.reverse_reverse]
    rw [hjournal] at hmore
    have hmem : Action.reported seq n found ∈ w.map Action.consumed :=
      hmore ▸ List.mem_append_right _ List.mem_cons_self
    obtain ⟨x, -, hx⟩ := List.mem_map.mp hmem
    cases hx
  | goesPast _ hsecond =>
    -- The run consumes `found`, which it should have reported.
    have hprefix : (u ++ [found]).map Action.consumed <+: (parse tokens).actions := by
      have hsuffix : ((u ++ [found]).map Action.consumed).reverse ++ [] <:+ (parse tokens).final.journal :=
        hsecond rfl
      rw [List.append_nil] at hsuffix
      exact List.reverse_reverse ((u ++ [found]).map Action.consumed) ▸
        List.reverse_prefix.mpr hsuffix
    rw [hmore, List.map_append, List.prefix_append_right_inj] at hprefix
    obtain ⟨rest, hrest⟩ := hprefix
    cases (List.cons.inj hrest).1

/-! ## The exception -/

theorem derives_integer_group :
    Derives (.construct .group) [.identifier, .keyword .as, .keyword .integer] :=
  .construct (.sequence (Derives.token List.mem_cons_self).separated_one
    (.fixed (.keyword .as) (Derives.token (by decide)).last))

theorem exists_opening_append {u : List TokenKind} (h : Derives opening u) :
    ∃ z, Construct.program.Derives (u ++ .identifier :: .keyword .as :: z) := by
  obtain ⟨body, hbody⟩ := Construct.exists_word .statement
  have hbody : Derives (.some (.construct .statement)) (body ++ []) := .sequence hbody .none
  cases h with
  | sequence hprogram h =>
    cases h with
    | sequence hname h =>
      cases h with
      | sequence hwith hgroups =>
        -- An integer group, and a body of any one statement.
        refine ⟨.keyword .integer :: .keyword .inBody :: (body ++ [.keyword .endProgram]), ?_⟩
        refine .construct (.of_eq (.sequence hprogram (.sequence hname (.sequence hwith
          (.sequence (hgroups.of_some.some_of_many_append derives_integer_group) (.fixed (.keyword .inBody)
            (.sequence hbody (Grammar.derives_fixed (.keyword .endProgram)).last)))))) ?_)
        simp only [List.append_assoc, List.cons_append, List.nil_append]

/-- A name before an equals sign, right after a complete group of declarations. -/
def TargetAfterGroup (u : List Token) (found : Token) (rest : List Token) : Prop :=
  Derives opening (u.map Token.kind) ∧ found.kind = .identifier ∧
    ∃ z ∈ rest.head?, z.kind = .punct .equals

theorem declares_of_not_target {u rest : List Token} {found : Token}
    (hopening : Derives opening (u.map Token.kind)) (hfound : found.kind = .identifier)
    (h : ¬TargetAfterGroup u found rest) : Declares (found :: rest) :=
  ⟨hfound, fun z hz hequals => h ⟨hopening, hfound, z, hz, hequals⟩⟩

theorem stream_of_closed (tokens : List Token) {x : Token} (hx : x.kind = .endOfFile) :
    (Cursor.ofTokens (tokens ++ [x])).stream = tokens ++ [x] := by
  unfold Cursor.ofTokens
  split
  · rename_i last hlast
    rw [List.getLast?_concat] at hlast
    cases hlast
    rw [dif_pos hx]
    simp only [Cursor.stream, List.reverse_nil, List.nil_append, List.dropLast_concat]
  · rename_i hnone
    rw [List.getLast?_concat] at hnone
    cases hnone

theorem exists_clean_stream {w more : List TokenKind} {u : List Token} {found : Token}
    (hw : Construct.program.Derives w)
    (hmore : u.map Token.kind ++ found.kind :: more = w ++ [.endOfFile]) :
    ∃ clean, (parse clean).errors = [] ∧
      (Cursor.ofTokens clean).stream = u ++ found :: more.map Token.fixed := by
  -- Behind `found` any tokens of the right kinds will do.
  have hkinds : (u ++ found :: more.map Token.fixed).map Token.kind = w ++ [.endOfFile] := by
    rw [← hmore, List.map_append, List.map_cons, List.map_map]
    exact congrArg (u.map Token.kind ++ found.kind :: ·) (List.map_id' more)
  obtain ⟨before, closing, hclean, hbefore, hclosing⟩ := List.map_eq_append_iff.mp hkinds
  obtain ⟨x, rfl, hx⟩ := List.map_eq_singleton_iff.mp hclosing
  have hend : Token.beforeEnd (before ++ [x]) = before := by
    refine Token.beforeEnd_append_cons (fun t ht => ?_) hx []
    exact Grammar.ne_endOfFile_of_derives hw _ (hbefore ▸ List.mem_map_of_mem ht)
  refine ⟨before ++ [x], clean_of_derives (by rwa [hend, hbefore]), ?_⟩
  rw [hclean, stream_of_closed before hx]

theorem not_viable_of_firstReports {tokens u rest : List Token} {found : Token} {seq : SeqNumber}
    {n : Nonterminal} (ahead : List TokenKind)
    (hstream : (Cursor.ofTokens tokens).stream = u ++ found :: rest)
    (hreports : FirstReports tokens u seq n found)
    (hlook : Derives opening (u.map Token.kind) → ∀ more,
      (Declares (found :: (ahead ++ more).map Token.fixed) ↔ Declares (found :: rest))) :
    ¬Viable (u.map Token.kind ++ found.kind :: ahead) := by
  rintro ⟨w, hw, more, hmore⟩
  rw [List.append_assoc, List.cons_append] at hmore
  obtain ⟨clean, hclean, hcleanStream⟩ := exists_clean_stream hw hmore
  exact not_shared_with_clean hclean hcleanStream hstream (fun h => hlook h more) hreports

theorem not_firstReports_of_declares {tokens u rest : List Token} {found : Token} {seq : SeqNumber}
    {n : Nonterminal} (hstream : (Cursor.ofTokens tokens).stream = u ++ found :: rest)
    (hopening : Derives opening (u.map Token.kind)) (h : Declares (found :: rest)) :
    ¬FirstReports tokens u seq n found := by
  intro hreports
  obtain ⟨z, hz⟩ := exists_opening_append hopening
  refine not_viable_of_firstReports [.keyword .as] hstream hreports (fun _ more => ?_) ?_
  · exact iff_of_true ⟨h.1, fun y hy => by cases hy; decide⟩ h
  · rw [h.1]
    refine .of_append (v := z) ?_
    rwa [List.append_assoc]

/-- The first error lies at the first token with which the stream stops being the beginning of a
sentence and its end of file, but for a name before an equals sign right after a group. -/
theorem first_error_ends_viable_prefix {tokens : List Token} (h : (parse tokens).errors ≠ []) :
    ∃ u found rest seq n,
      (Cursor.ofTokens tokens).stream = u ++ found :: rest ∧ (∀ t ∈ u, t.kind ≠ .endOfFile) ∧
        FirstReports tokens u seq n found ∧
          (parse tokens).errors.head? = some ⟨seq, .syntaxError n found⟩ ∧
            Viable (u.map Token.kind) ∧
              (¬TargetAfterGroup u found rest → ¬Viable (u.map Token.kind ++ [found.kind])) ∧
                (TargetAfterGroup u found rest → Viable (u.map Token.kind ++ [found.kind]) ∧
                  ¬Viable (u.map Token.kind ++ [found.kind, .punct .equals])) := by
  obtain ⟨u, v, hfails, hderives⟩ := (advances_parse tokens).failed rfl h
  obtain ⟨seq, n, found, rest, hstream, hreports⟩ := firstReports_of_failsAfter hfails
  have hinside (t : Token) (ht : t ∈ u) : t.kind ≠ .endOfFile :=
    Grammar.ne_endOfFile_of_derives hderives _ (List.mem_append_left _ (List.mem_map_of_mem ht))
  refine ⟨u, found, rest, seq, n, hstream, hinside, hreports, hreports.head?_errors,
    .of_append hderives, fun htarget => ?_, fun htarget => ?_⟩
  · refine not_viable_of_firstReports _ hstream hreports fun hopening more => ?_
    -- A name that is no target starts another group, and that is no error.
    by_cases hfound : found.kind = .identifier
    · have hdeclares := declares_of_not_target hopening hfound htarget
      exact absurd hreports (not_firstReports_of_declares hstream hopening hdeclares)
    · exact iff_of_false (fun h => hfound h.1) fun h => hfound h.1
  · obtain ⟨hopening, hfound, z, hz, hequals⟩ := htarget
    constructor
    · -- The name could start another group.
      obtain ⟨more, hmore⟩ := exists_opening_append hopening
      rw [hfound]
      refine .of_append (v := .keyword .as :: more) ?_
      rwa [List.append_assoc]
    · refine not_viable_of_firstReports _ hstream hreports fun _ more => ?_
      exact iff_of_false (fun h => h.2 _ rfl rfl) fun h => h.2 z hz hequals

/-- Behind one group `IN` is missing before an assignment, and then an equals sign is missing in one. -/
theorem first_error_ends_viable_prefix_of_assignment :
    let name (text : String) : Token := ⟨.identifier, text, .start⟩
    let one : Token := ⟨.integerLiteral, "1", .start⟩
    let header : List Token := [.fixed (.keyword .program), name "p", .fixed (.keyword .withDecls),
      name "a", .fixed (.keyword .as), .fixed (.keyword .integer)]
    let value : List Token := [.fixed (.punct .equals), one, .fixed (.keyword .endProgram)]
    let early := header ++ name "b" :: value
    let body := header ++ [.fixed (.keyword .inBody), name "b"]
    let late := body ++ [one, .fixed (.keyword .endProgram)]
    ((parse early).errors ≠ [] ∧ FirstReports early header 2 .program (name "b") ∧
      TargetAfterGroup header (name "b") value ∧ Viable (header.map Token.kind ++ [.identifier]) ∧
        ¬Viable (header.map Token.kind ++ [.identifier, .punct .equals])) ∧
    (parse late).errors ≠ [] ∧ FirstReports late body 3 .assignment one ∧
      Viable (body.map Token.kind) ∧ ¬Viable (body.map Token.kind ++ [.integerLiteral]) := by
  intro name one header value early body late
  have hearly : (parse early).errors ≠ [] := by decide +kernel
  have hreports : FirstReports early header 2 .program (name "b") :=
    ⟨(parse early).actions.drop 7, by decide +kernel⟩
  have hlate : (parse late).errors ≠ [] := by decide +kernel
  have hreports' : FirstReports late body 3 .assignment one :=
    ⟨(parse late).actions.drop 9, by decide +kernel⟩
  have hopening : Derives opening (header.map Token.kind) :=
    .fixed (.keyword .program) (.sequence (Grammar.derives_fixed .identifier) (.fixed (.keyword .withDecls)
      (.sequence derives_integer_group .none)))
  constructor
  · obtain ⟨u, found, rest, seq, n, hstream, -, hfound, -, -, -, hexception⟩ :=
      first_error_ends_viable_prefix hearly
    obtain ⟨rfl, rfl⟩ := hfound.unique hreports
    have hwhole : (Cursor.ofTokens early).stream = header ++ name "b" :: (value ++ [.endOfFile .start]) := by
      decide
    obtain rfl : rest = value ++ [.endOfFile .start] :=
      (List.cons.inj (List.append_cancel_left (hstream.symm.trans hwhole))).2
    obtain ⟨hviable, hnot⟩ := hexception ⟨hopening, rfl, _, rfl, rfl⟩
    exact ⟨hearly, hreports, ⟨hopening, rfl, _, rfl, rfl⟩, hviable, hnot⟩
  · obtain ⟨u, found, rest, seq, n, -, -, hfound, -, hviable, hplain, -⟩ :=
      first_error_ends_viable_prefix hlate
    obtain ⟨rfl, rfl⟩ := hfound.unique hreports'
    exact ⟨hlate, hreports', hviable, hplain fun htarget => absurd htarget.2.1 (by decide)⟩

end PalChecker.Parser
