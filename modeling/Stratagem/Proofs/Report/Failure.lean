import Mathlib
import Stratagem.Proofs.CommandLine.Exit
import Stratagem.Proofs.Report.Uncrossed

/-!
# Reports on texts that are no programs

If a text is no program, then the report on it is the listing of its tokens, if that is asked for
and the text can be scanned, and one line about the error. Nothing is rendered or drawn, and no file
is touched, whatever else is asked for.

The line quotes what offends, which may be any character that starts no token, so that it is a
single line has to be shown: blanks are skipped, and all characters that end a line are blanks
(`oneLine_of_offends`).
-/

namespace Stratagem

open Text

/-! ## Messages stay on one line -/

/-- A token of a text is spelled on one line. -/
theorem Token.Genuine.oneLine {t : Token} (h : t.Genuine) : OneLine t.lexeme :=
  (Inline.of_lexeme h).oneLine

/-- **What offends stays on one line**, and so does the cause that quotes it. -/
theorem oneLine_of_offends {lexeme rest : List Char} {cause : Diagnostic.Cause}
    (h : Offends lexeme rest cause) : OneLine (String.ofList lexeme) ∧ OneLine cause.text := by
  cases h with
  | @character c _ hgap _ _ _ =>
    have hbreak : isLineBreak c = false := isLineBreak_eq_false_of_isBlank hgap.1
    constructor
    · simpa [OneLine] using hbreak
    · exact OneLine.append (by decide) (by simpa [OneLine] using hbreak)
  | number _ hrun _ _ =>
    refine ⟨fun c hc => ?_, by decide⟩
    rw [String.toList_ofList] at hc
    exact (Inline.of_continuesWord (continuesWord_of_isDigit (hrun c hc))).1

/-- A message stays on one line if what it quotes does. -/
theorem Diagnostic.oneLine_message {d : Diagnostic} (hlexeme : OneLine d.lexeme)
    (hcause : OneLine d.cause.text) : OneLine d.message := by
  have hstage : OneLine d.stage.label := by cases d.stage <;> decide
  have hplace : ∀ n, OneLine (Decimal.text n) := fun n => (Inline.decimal n).oneLine
  have hline := (hstage.append (by decide : OneLine " error at line ")).append (hplace d.line)
  have hcolumn := (hline.append (by decide : OneLine ", column ")).append (hplace d.column)
  have hposition := (hcolumn.append (by decide : OneLine " (position ")).append (hplace d.position)
  have hnear := (hposition.append (by decide : OneLine ") near '")).append hlexeme
  exact (hnear.append (by decide : OneLine "': ")).append hcause

theorem Expectation.oneLine_text (what : Expectation) : OneLine what.text := by
  cases what <;> decide

/-- **The message about a text that is no program stays on one line.** -/
theorem oneLine_message {src : String} {fault : SourceFault} (h : parseText src = .error fault) :
    OneLine fault.message := by
  rcases parseText_cases src with ⟨p, hparse, -⟩ | ⟨d, hparse, hhalts⟩ |
    ⟨ts, t, what, hscan, ht, hparse⟩
  · rw [hparse] at h
    simp at h
  · rw [hparse] at h
    obtain rfl := Except.error.inj h
    obtain ⟨-, -, -, hoffends, rfl⟩ := hhalts
    obtain ⟨hlexeme, hcause⟩ := oneLine_of_offends hoffends
    exact Diagnostic.oneLine_message hlexeme hcause
  · rw [hparse] at h
    obtain rfl := Except.error.inj h
    refine Diagnostic.oneLine_message ?_ what.oneLine_text
    show OneLine t.lexeme
    obtain ⟨us, rfl, hgenuine⟩ := scan_eq_append_endAfter hscan
    rcases List.mem_append.mp ht with ht | ht
    · exact (hgenuine t ht).oneLine
    · rw [List.mem_singleton.mp ht]
      exact (by decide : OneLine "")

/-! ## Reports -/

namespace Report

/-- What a report shows of the tokens of a text. -/
def tokensShown (options : Options) (text : String) : String :=
  match scan text with
  | .ok tokens => if options.tokens then tokenListing tokens else ""
  | .error _ => ""

/-- A text that is no program gets the line about its error behind its tokens. -/
theorem onText_of_error (options : Options) (tool : LayoutTool) (store : Files.Store)
    {text : String} {fault : SourceFault} (h : parseText text = .error fault) :
    onText options tool store text =
      ⟨.ok false, tokensShown options text ++ errorLine fault.message, "", store⟩ := by
  unfold onText tokensShown
  cases hscan : scan text with
  | error d =>
    rw [parseText_of_scan_error hscan] at h
    rw [← Except.error.inj h, String.empty_append]
    rfl
  | ok ts =>
    rcases parse_cases_of_scan hscan with ⟨p, hparse, -⟩ | ⟨t, -, what, hparse⟩
    · rw [parseText_of_parse_ok hscan hparse] at h
      simp at h
    · rw [parseText_of_parse_error hscan hparse] at h
      rw [← Except.error.inj h]
      simp only [onTokens, hparse]
      rfl

theorem uncrossed_tokensShown (options : Options) (text : String) :
    Uncrossed (tokensShown options text) := by
  unfold tokensShown
  split
  next ts hscan =>
    split
    · exact uncrossed_tokenListing (uncrossed_of_mem_scan hscan)
    · decide
  next => decide

/-- A text that is a program gets its tokens and its chapters, and then its drawing. -/
theorem onText_of_program (options : Options) (tool : LayoutTool) (store : Files.Store)
    {text : String} {p : Program} (h : parseText text = .ok p) :
    onText options tool store text = (drawingPart options tool store p).after
      (tokensShown options text ++ (programChapters options p).1) := by
  obtain ⟨ts, hscan, hparse⟩ := parseText_eq_ok.mp h
  have hchapters := programChapters_snd_eq_none options (canonical_of_parseText h).wellTyped
  have hprogram : onProgram options tool store p =
      (drawingPart options tool store p).after (programChapters options p).1 := by
    unfold onProgram
    split
    next out fault hout => simp [hout] at hchapters
    next out hout => rw [hout]
  unfold onText tokensShown
  rw [hscan]
  simp only [onTokens, hparse, hprogram, Run.after, String.append_assoc]

/-- Nothing else if nothing is to be drawn. -/
theorem onText_of_ok {options : Options} (hdrawing : options.drawing = .absent)
    (tool : LayoutTool) (store : Files.Store) {text : String} {p : Program}
    (h : parseText text = .ok p) :
    onText options tool store text =
      ⟨.ok true, tokensShown options text ++ (programChapters options p).1, "", store⟩ := by
  have hpart : drawingPart options tool store p = ⟨.ok true, "", "", store⟩ := by
    simp [drawingPart, hdrawing, Datum.isNothing]
  rw [onText_of_program options tool store h, hpart, Run.after, String.append_empty]

/-- A report that draws nothing depends neither on the layout tool nor on the files, and leaves them
as they are. -/
theorem onText_alone {options : Options} (hdrawing : options.drawing = .absent)
    (tool tool' : LayoutTool) (store store' : Files.Store) (text : String) :
    ∃ isProgram, onText options tool store text =
      ⟨.ok isProgram, (onText options tool' store' text).out, "", store⟩ := by
  cases hparse : parseText text with
  | error fault =>
    rw [onText_of_error options tool store hparse, onText_of_error options tool' store' hparse]
    exact ⟨false, rfl⟩
  | ok p =>
    rw [onText_of_ok hdrawing tool store hparse, onText_of_ok hdrawing tool' store' hparse]
    exact ⟨true, rfl⟩

/-- **A text that is no program is reported in one line, and nothing else happens.** Whatever is
asked for, the result is negative, the output is the listing of the tokens, if there is one, and the
line about the error, and the files stay as they are. The message is one line. A text that is a
program, if nothing is to be drawn, has a positive result, and no cross is in the output, so no line
about an error is there. -/
theorem onText_fails_in_one_line (options : Options) (tool : LayoutTool) (store : Files.Store)
    (text : String) :
    (∀ fault, parseText text = .error fault →
      onText options tool store text =
        ⟨.ok false, tokensShown options text ++ errorLine fault.message, "", store⟩ ∧
      OneLine fault.message) ∧
    ∀ p, parseText text = .ok p → options.drawing = .absent →
      let run := onText options tool store text
      run.result = .ok true ∧ '✗' ∉ run.out.toList ∧ run.err = "" := by
  constructor
  · intro fault h
    exact ⟨onText_of_error options tool store h, oneLine_message h⟩
  · intro p h hdrawing
    have hshown := uncrossed_tokensShown options text
    have hchapters := uncrossed_programChapters options (canonical_of_parseText h)
    rw [onText_of_ok hdrawing tool store h]
    exact ⟨rfl, Uncrossed.append_iff.mpr ⟨hshown, hchapters⟩, rfl⟩

/-- A report with a listing of the tokens and a drawing, in a format that is none. -/
def listedAndDrawn : Options :=
  { tokens := true, json := true, drawing := .text "out/ast", format := .text "no format" }

/-- Of a move without a direction there are the tokens and the line about the error, but no drawing
and no complaint about its format. A program gets no such line. -/
theorem bareMove_reported :
    onText listedAndDrawn .missing ⟨[]⟩ "move" =
      ⟨.ok false,
        "Tokens (2):\n    0: Token(MOVE, 'move', pos=0)\n    1: Token(EOF, '', pos=4)\n" ++
          "✗ Syntax error at line 1, column 5 (position 4) near '': Expected direction\n", "",
        ⟨[]⟩⟩ ∧
      OneLine "Syntax error at line 1, column 5 (position 4) near '': Expected direction" ∧
      '✗' ∉ (onText { json := true } .missing ⟨[]⟩ "done").out.toList := by
  have hmove : parseText "move" =
      .error (.parse (.problem ⟨.parsing, .expected .direction, "", 4, 1, 5⟩)) := by cbv
  have hdone : parseText "done" = .ok [.done] := by cbv
  obtain ⟨hreport, hline⟩ :=
    (onText_fails_in_one_line listedAndDrawn .missing ⟨[]⟩ "move").1 _ hmove
  obtain ⟨-, hnone, -⟩ :=
    (onText_fails_in_one_line { json := true } .missing ⟨[]⟩ "done").2 _ hdone rfl
  have hmessage : (SourceFault.parse
      (.problem ⟨.parsing, .expected .direction, "", 4, 1, 5⟩)).message =
        "Syntax error at line 1, column 5 (position 4) near '': Expected direction" := by decide +kernel
  have hshown : tokensShown listedAndDrawn "move" =
      "Tokens (2):\n    0: Token(MOVE, 'move', pos=0)\n    1: Token(EOF, '', pos=4)\n" := by cbv
  rw [hmessage] at hreport hline
  rw [hshown] at hreport
  exact ⟨hreport, hline, hnone⟩

end Report

end Stratagem
