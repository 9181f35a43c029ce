import Mathlib
import PalChecker.CommandLine.Exit
import PalChecker.FileTree
import PalChecker.Proofs.HeldTokens
import PalChecker.Proofs.Token.Written

/-!
# One line for each diagnostic

A report repeats the text of the token that it blames. No token holds the end of a line, so every report
is one line, and the lines of an answer can be told apart.
-/

namespace PalChecker

/-! ## Texts without the end of a line -/

/-- Nothing in the text ends a line. -/
def OneLine (text : String) : Prop := '\n' ∉ text.toList ∧ '\r' ∉ text.toList

instance (text : String) : Decidable (OneLine text) := inferInstanceAs (Decidable (_ ∧ _))

theorem oneLine_empty : OneLine "" := ⟨List.not_mem_nil, List.not_mem_nil⟩

theorem oneLine_append {a b : String} : OneLine (a ++ b) ↔ OneLine a ∧ OneLine b := by
  unfold OneLine
  rw [String.toList_append, List.mem_append, List.mem_append, not_or, not_or]
  exact and_and_and_comm

theorem oneLine_nat (n : Nat) : OneLine (toString n) := by
  have hdigit {c : Char} (hc : c ∈ (toString n).toList) : c.isDigit = true := by
    rw [Nat.toString_eq_repr, Nat.toList_repr] at hc
    exact Nat.isDigit_of_mem_toDigits (by decide) (by decide) hc
  exact ⟨fun hc => absurd (hdigit hc) (by decide), fun hc => absurd (hdigit hc) (by decide)⟩

theorem Location.oneLine_render (here : Location) : OneLine here.render := by
  have hcolon : OneLine ":" := by decide
  exact oneLine_append.mpr ⟨oneLine_append.mpr ⟨oneLine_nat _, hcolon⟩, oneLine_nat _⟩

theorem Nonterminal.oneLine_text (n : Nonterminal) : OneLine n.text := by cases n <;> decide

theorem ValueType.oneLine_text (type : ValueType) : OneLine type.text := by cases type <;> decide

/-! ## Reports -/

theorem Token.oneLine_describe {t : Token} (h : OneLine t.value) : OneLine t.describe := by
  have hquote : OneLine "'" := by decide
  unfold describe
  split
  · decide
  · exact oneLine_append.mpr ⟨oneLine_append.mpr ⟨hquote, h⟩, hquote⟩

namespace Diagnostic

theorem oneLine_message {d : Diagnostic} (h : OneLine d.token.value) : OneLine d.message := by
  -- The parts of a message that vary are filled in, and the fixed ones are left to be decided.
  cases d with
  | syntaxError n found =>
    unfold message
    simp only [oneLine_append]
    refine ⟨⟨⟨⟨?_, n.oneLine_text⟩, ?_⟩, found.oneLine_describe h⟩, ?_⟩ <;> decide +kernel
  | alreadyDeclared token existing =>
    unfold message
    simp only [oneLine_append]
    refine ⟨⟨⟨⟨?_, h⟩, ?_⟩, existing.token.location.oneLine_render⟩, ?_⟩ <;> decide +kernel
  | notDeclared token =>
    unfold message
    simp only [oneLine_append]
    refine ⟨⟨?_, h⟩, ?_⟩ <;> decide +kernel
  | typeConflict token actual expected =>
    unfold message
    simp only [oneLine_append]
    refine ⟨⟨⟨⟨⟨⟨?_, h⟩, ?_⟩, expected.oneLine_text⟩, ?_⟩, actual.oneLine_text⟩, ?_⟩ <;> decide +kernel

theorem oneLine_report {d : Diagnostic} (h : OneLine d.token.value) : OneLine d.report.line := by
  simp only [Report.line, report, oneLine_append]
  refine ⟨⟨⟨⟨⟨?_, ?_⟩, ?_⟩, d.location.oneLine_render⟩, ?_⟩, oneLine_message h⟩ <;> decide +kernel

end Diagnostic

/-! ## Tokens of a text -/

theorem Token.oneLine_value {t : Token} (h : t.IsLexable) : OneLine t.value := by
  have hwritten {c : Char} (hc : c ∈ t.value.toList) : c ∈ t.written.toList := by
    unfold written
    split
    · simp [hc]
    · exact hc
  exact ⟨fun hc => Lexer.lineEnd_not_mem_written rfl h (hwritten hc),
    fun hc => Lexer.lineEnd_not_mem_written rfl h (hwritten hc)⟩

namespace Script

theorem oneLine_token {s : Script} {t : Token} (h : t ∈ s.tokens) : OneLine t.value := by
  obtain ⟨tokens, hscan, hkinds⟩ := Lexer.exists_scan_eq .start s.content.toList
  have hmem : t ∈ Lexer.scan .start s.content.toList := h
  rw [hscan] at hmem
  rcases List.mem_append.mp hmem with ht | ht
  · exact Token.oneLine_value (Lexer.isLexable_of_mem_scan h (hkinds t ht))
  · rw [List.mem_singleton.mp ht]
    exact oneLine_empty

theorem oneLine_report {s : Script} {d : Diagnostic} (h : d ∈ s.diagnostics) :
    OneLine d.report.line := by
  obtain ⟨tokens, hscan, -⟩ := Lexer.exists_scan_eq .start s.content.toList
  have htokens : s.tokens = tokens ++ [_] := hscan
  have hstream : (Cursor.ofTokens s.tokens).stream = s.tokens := by
    rw [htokens, Cursor.ofTokens_concat_of_endOfFile tokens (Token.endOfFile_kind _)]
    rfl
  exact Diagnostic.oneLine_report (oneLine_token (hstream ▸ Analysis.token_mem_stream h))

end Script

/-! ## Reading -/

namespace FileTree

theorem fromUTF8?_eq_some_iff {bytes : ByteArray} {content : String} :
    String.fromUTF8? bytes = some content ↔ bytes = content.toUTF8 := by
  unfold String.fromUTF8?
  split
  · rw [Option.some_inj]
    exact String.toByteArray_inj.symm
  · rename_i hinvalid
    refine ⟨fun h => absurd h.symm (Option.some_ne_none content), fun h => absurd ?_ hinvalid⟩
    rw [h]
    exact content.isValidUTF8

variable {tree : FileTree} {path content : String}

theorem text_eq_ok_iff : tree.text path = .ok content ↔ tree.bytes path = .ok content.toUTF8 := by
  unfold text
  cases tree.bytes path with
  | error cause => simp [bind, Except.bind]
  | ok bytes =>
    rw [Except.ok.injEq, ← fromUTF8?_eq_some_iff]
    simp only [bind, Except.bind]
    cases String.fromUTF8? bytes with
    | some read => simp [pure, Except.pure]
    | none => simp [throw, throwThe, MonadExceptOf.throw]

theorem script_of_text (h : tree.bytes path = .ok content.toUTF8) :
    tree.script path = .ok (.ofFile path content) := by
  unfold script
  rw [text_eq_ok_iff.mpr h]

theorem exists_failure_of_no_text (h : ∀ content : String, tree.bytes path ≠ .ok content.toUTF8) :
    ∃ failure, tree.script path = .error failure := by
  unfold script
  cases htext : tree.text path with
  | ok content => exact absurd (text_eq_ok_iff.mp htext) (h content)
  | error cause => exact ⟨_, rfl⟩

end FileTree

/-! ## Answers -/

namespace CommandLine

theorem toList_lines_cons (l : String) (ls : List String) :
    (lines (l :: ls)).toList = l.toList ++ '\n' :: (lines ls).toList := by
  simp [lines, String.toList_join]

theorem splitOn_lines {ls : List String} (h : ∀ l ∈ ls, OneLine l) :
    (lines ls).toList.splitOn '\n' = ls.map String.toList ++ [[]] := by
  induction ls with
  | nil => rfl
  | cons l ls ih =>
    obtain ⟨hl, hls⟩ := List.forall_mem_cons.mp h
    rw [toList_lines_cons, List.splitOn_append_cons_self_of_not_mem hl.1, ih hls]
    rfl

namespace Exit

theorem ofArguments_of_check (read : String → Except ReadFailure Script) {arguments : List String}
    {path : String} (h : Request.ofArguments arguments = .check path) :
    ofArguments read arguments = ofScript (read path) := by
  unfold ofArguments
  rw [h]

theorem splitOn_stdout_ofDiagnostics {found : List Diagnostic}
    (h : ∀ d ∈ found, OneLine d.report.line) :
    (ofDiagnostics found).stdout.toList.splitOn '\n' =
      (banner :: found.map (·.report.line) ++ [s!"{found.length} errors found."]).map String.toList ++
        [[]] := by
  refine splitOn_lines (List.forall_mem_append.mpr ⟨List.forall_mem_cons.mpr ⟨?_, ?_⟩, ?_⟩)
  · decide +kernel
  · exact List.forall_mem_map.mpr h
  · have hrest : OneLine " errors found." := by decide +kernel
    exact List.forall_mem_singleton.mpr (oneLine_append.mpr ⟨oneLine_nat _, hrest⟩)

/-- A file of text is answered with the banner, a line for each diagnostic and their number; the code says
whether there are any. A file that cannot be read, or holds no text, is answered with the banner. -/
theorem diagnostics_are_answered_line_by_line (tree : FileTree) {arguments : List String} {path : String}
    (hfile : Request.ofArguments arguments = .check path) :
    let exit := ofArguments tree.script arguments
    (∀ content : String, tree.bytes path = .ok content.toUTF8 →
      let found := (Script.ofFile path content).diagnostics
      let reports := found.map (·.report.line)
      exit.stdout.toList.splitOn '\n' =
          (banner :: reports ++ [s!"{found.length} errors found."]).map String.toList ++ [[]] ∧
        (∀ report ∈ reports, OneLine report) ∧
        exit.code = if found = [] then 0 else 1) ∧
      ((∀ content : String, tree.bytes path ≠ .ok content.toUTF8) →
        exit.stdout = banner ++ "\n" ∧ exit.code = 2) := by
  intro exit
  have hexit : exit = ofScript (tree.script path) := ofArguments_of_check tree.script hfile
  constructor
  · intro content hbytes found reports
    -- No report holds a line break, so splitting the output gives back the reports.
    have hreports : ∀ d ∈ found, OneLine d.report.line := fun _ => Script.oneLine_report
    rw [hexit, FileTree.script_of_text hbytes]
    refine ⟨splitOn_stdout_ofDiagnostics hreports, List.forall_mem_map.mpr hreports, ?_⟩
    change (if found.isEmpty then 0 else 1) = _
    simp only [List.isEmpty_iff]
  · intro hbytes
    obtain ⟨failure, hfailure⟩ := FileTree.exists_failure_of_no_text hbytes
    rw [hexit, hfailure]
    exact ⟨by simp [ofScript, lines], rfl⟩

/-- A quote that closes nothing is reported as it is, and the lone carriage return behind it is not. -/
theorem diagnostics_are_answered_line_by_line_of_quote :
    let content := "PROGRAM \"\r// a"
    let tree := FileTree.empty.put "p" (.file content.toUTF8)
    (Request.ofArguments ["p"] = .check "p" ∧ tree.bytes "p" = .ok content.toUTF8 ∧
      (ofArguments tree.script ["p"]).stdout.toList.splitOn '\n' =
        ["PAL compiler front-end 0.1.0".toList,
          "PAL | ERROR | 1:9 | Syntax error in <Program>: unexpected '\"'.".toList,
          "1 errors found.".toList, []] ∧
      (ofArguments tree.script ["p"]).code = 1) ∧
    Request.ofArguments ["--", "-b"] = .check "-b" ∧
      (∀ content : String, tree.bytes "-b" ≠ .ok content.toUTF8) ∧
      (ofArguments tree.script ["--", "-b"]).stdout = "PAL compiler front-end 0.1.0\n" ∧
      (ofArguments tree.script ["--", "-b"]).code = 2 := by
  intro content tree
  have hfile : Request.ofArguments ["p"] = .check "p" := rfl
  have hbytes : tree.bytes "p" = .ok content.toUTF8 := by
    unfold tree content
    cbv
  have hmissing : Request.ofArguments ["--", "-b"] = .check "-b" := rfl
  have hno : ∀ content : String, tree.bytes "-b" ≠ .ok content.toUTF8 := by
    have hnone : tree.bytes "-b" = .error .notFound := by
      unfold tree
      cbv
    intro content hcontent
    cases hnone.symm.trans hcontent
  have hfound : (Script.ofFile "p" content).diagnostics =
      [.syntaxError .program ⟨.invalid, "\"", ⟨1, 9⟩⟩] := by decide +kernel
  obtain ⟨hlines, -, hcode⟩ := (diagnostics_are_answered_line_by_line tree hfile).1 content hbytes
  obtain ⟨hstdout, hcode'⟩ := (diagnostics_are_answered_line_by_line tree hmissing).2 hno
  simp only [hfound] at hlines hcode
  refine ⟨⟨hfile, hbytes, hlines.trans ?_, hcode⟩, hmissing, hno, hstdout, hcode'⟩
  decide +kernel

end Exit

end CommandLine

end PalChecker
