import PalChecker.Proofs.Suppression
import PalChecker.Proofs.Typing.RenamedNames

/-!
# What names and places are worth

With other names and other places a program is read to the same tree and has the same wrong with it.
Names count only in so far as they are the same or not, and places are never looked at.
-/

namespace PalChecker

namespace Renaming

/-- Other names for the names, and other places for all tokens. -/
def ofMaps (names : String → String) (places : Location → Location) : Renaming where
  token t :=
    { t with
      value := if t.kind = .identifier then names t.value else t.value
      location := places t.location }
  place := places
  kind_token _ := rfl
  location_token _ := rfl

theorem keepsNames_ofMaps {names : String → String} (hnames : Function.Injective names)
    (places : Location → Location) : (ofMaps names places).KeepsNames := by
  intro t u ht hu
  simp only [ofMaps, ht, hu, ↓reduceIte]
  exact hnames.eq_iff

theorem endOfFile_ofMaps (names : String → String) (places : Location → Location) (place : Location) :
    (ofMaps names places).token (.endOfFile place) = .endOfFile ((ofMaps names places).place place) := rfl

end Renaming

theorem named_of_mem_parse {tokens : List Token} {n : Node}
    (h : n ∈ (Parser.parse tokens).program.nodes) : n.Named := by
  have hident {checked : Bool} {i : Ident}
      (hi : .ident checked i ∈ (Parser.parse tokens).program.nodes) : i.IsName := by
    obtain ⟨u, hcompletes, -⟩ := Parser.exists_completed_of_mem hi
    exact hcompletes.1
  cases n with
  | ident checked i => exact hident h
  | part | condition | group => trivial
  | statement st =>
    cases st with
    | assignment stamp target value =>
      -- The node of the target comes right before those of the value.
      have hmem := mem_allNodes_of_sides? h rfl
      have hinfix := Statement.sidesFirst_allNodes _ _ hmem _ _ rfl
      have htarget : Node.ident true target ∈ Statement.allNodes (Parser.parse tokens).program.statements :=
        hinfix.subset (List.mem_append_left _ (List.mem_append_left _ List.mem_cons_self))
      exact hident (List.mem_append_right _ htarget)
    | loop | conditional | input | output => trivial

theorem ordered_renamed (r : Renaming) (found : List Finding) :
    Finding.ordered (found.map (Finding.renamed r)) =
      (Finding.ordered found).map (Diagnostic.renamed r) := by
  have hsort : (found.map (Finding.renamed r)).mergeSort (fun f g => f.seq ≤ g.seq) =
      (found.mergeSort fun f g => f.seq ≤ g.seq).map (Finding.renamed r) :=
    (List.map_mergeSort (f := Finding.renamed r) fun _ _ _ _ => rfl).symm
  unfold Finding.ordered
  rw [hsort, List.map_map, List.map_map]
  rfl

/-- Under other names, none of which two names share, and at other places a stream is read to the same
tree with the same errors, and everything wrong with it is the same, with those names and places. -/
theorem analysis_respects_renaming {tokens : List Token} (hne : tokens ≠ [])
    {names : String → String} (hnames : Function.Injective names) (places : Location → Location) :
    let r := Renaming.ofMaps names places
    (Parser.parse (tokens.map r.token)).program = (Parser.parse tokens).program.renamed r ∧
      (Parser.parse (tokens.map r.token)).errors =
        (Parser.parse tokens).errors.map (Finding.renamed r) ∧
      Analysis.diagnostics (tokens.map r.token) =
        (Analysis.diagnostics tokens).map (Diagnostic.renamed r) := by
  intro r
  obtain ⟨hprogram, hfinal⟩ := Parser.parse_renamed r hne (Renaming.endOfFile_ofMaps names places)
  have herrors : (Parser.parse (tokens.map r.token)).errors =
      (Parser.parse tokens).errors.map (Finding.renamed r) :=
    (congrArg Parser.State.errors hfinal).trans (Parser.State.errors_renamed r _)
  refine ⟨hprogram, herrors, ?_⟩
  -- Equal names stay equal and others stay apart, so the checks decide alike.
  have hcheck : Typing.check ((Parser.parse tokens).program.renamed r) =
      (Typing.check (Parser.parse tokens).program).map (Finding.renamed r) :=
    check_renamed (Renaming.keepsNames_ofMaps hnames places) fun _ => named_of_mem_parse
  simp only [Analysis.diagnostics, hprogram, herrors, hcheck, ← List.map_append, ordered_renamed]

/-- A name declared twice and one that is not declared, all at one place. -/
theorem analysis_respects_renaming_of_redeclaration :
    let name (text : String) (line : Nat) : Token := ⟨.identifier, text, ⟨line, 1⟩⟩
    let tokens : List Token :=
      [.fixed (.keyword .program), name "p" 1, .fixed (.keyword .withDecls), name "a" 2,
        .fixed (.punct .comma), name "a" 3, .fixed (.keyword .as), .fixed (.keyword .integer),
        .fixed (.keyword .inBody), name "a" 4, .fixed (.punct .equals), name "b" 5,
        .fixed (.keyword .endProgram)]
    let names : String → String := fun text => "q" ++ text
    (tokens ≠ [] ∧ Function.Injective names) ∧
      Analysis.diagnostics (tokens.map (Renaming.ofMaps names fun _ => ⟨9, 9⟩).token) =
        [.alreadyDeclared ⟨.identifier, "qa", ⟨9, 9⟩⟩ ⟨⟨.identifier, "qa", ⟨9, 9⟩⟩, .integer⟩,
          .notDeclared ⟨.identifier, "qb", ⟨9, 9⟩⟩] := by
  intro name tokens names
  have hne : tokens ≠ [] := List.cons_ne_nil _ _
  have hnames : Function.Injective names := fun _ _ => (String.append_right_inj _).mp
  have hfound : Analysis.diagnostics tokens =
      [.alreadyDeclared (name "a" 3) ⟨name "a" 2, .integer⟩, .notDeclared (name "b" 5)] := by
    have hfindings : (Parser.parse tokens).errors ++ Typing.check (Parser.parse tokens).program =
        [⟨2, .alreadyDeclared (name "a" 3) ⟨name "a" 2, .integer⟩⟩, ⟨4, .notDeclared (name "b" 5)⟩] := by
      decide +kernel
    simp only [Analysis.diagnostics, Finding.ordered, hfindings]
    rw [List.mergeSort_of_pairwise (by decide)]
    rfl
  have hrenamed := (analysis_respects_renaming hne hnames fun _ => ⟨9, 9⟩).2.2
  rw [hfound] at hrenamed
  exact ⟨⟨hne, hnames⟩, hrenamed⟩

end PalChecker
