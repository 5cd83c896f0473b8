import Mathlib
import Stratagem.Dialogue
import Stratagem.Proofs.Report.Failure

/-!
# Dialogues are answered line by line

What a dialogue writes is its banner and then, line by line, the prompt and the answer to the line,
up to the first line that closes it or to the end of the input (`transcript`). The answer to a line
is what a report on that line writes by itself, with any layout tool and on any files, so no line
has a part in the answer to another one.

A round of the dialogue hands nothing to the next but the lines that are left
(`exchange_cons`). That a report always comes to its end and leaves the files alone when it draws
nothing (`Report.onText_alone`) is what lets the dialogue go on after every line, also after one that
holds no program.
-/

namespace Stratagem.Dialogue

/-- Whether a line closes a dialogue: without its outer blanks, and with small letters, it is one of
the closing words. -/
def closes (line : List Char) : Bool := isClosing (Text.trim line)

/-- The answer to a line, given how reports on texts are made: nothing for an empty line, and what
the report on its text writes for any other. -/
def answer (report : String → Run Bool) (line : List Char) : String :=
  if (Text.trim line).isEmpty then "" else (report (String.ofList (Text.trim line))).out

/-- What a dialogue over the given lines writes behind its banner: the prompt and the answer for
every line before the first one that closes it, and then the prompt and the last word. -/
def answers (report : String → Run Bool) (lines : List (List Char)) : String :=
  String.join ((lines.takeWhile (!closes ·)).map (prompt ++ answer report ·)) ++
    (prompt ++ if lines.any closes then farewell else endNote)

/-- What a dialogue over the given lines writes. -/
def transcript (report : String → Run Bool) (lines : List (List Char)) : String :=
  banner ++ answers report lines

section

variable (report : String → Run Bool) {line : List Char} (lines : List (List Char))

/-- The lines behind one that closes the dialogue have no answers. -/
theorem answers_cons_of_closes (h : closes line = true) :
    answers report (line :: lines) = prompt ++ farewell := by
  have hnone : (line :: lines).takeWhile (!closes ·) = [] := by
    rw [List.takeWhile_cons, h]
    rfl
  have hany : (line :: lines).any closes = true := by rw [List.any_cons, h, Bool.true_or]
  rw [answers, hnone, hany]
  exact String.empty_append

theorem answers_cons (h : closes line = false) :
    answers report (line :: lines) = prompt ++ answer report line ++ answers report lines := by
  have htake : (line :: lines).takeWhile (!closes ·) = line :: lines.takeWhile (!closes ·) := by
    rw [List.takeWhile_cons, h]
    rfl
  have hany : (line :: lines).any closes = lines.any closes := by
    rw [List.any_cons, h, Bool.false_or]
  rw [answers, answers, htake, hany, List.map_cons, String.join_cons, String.append_assoc]

end

/-! ## One round -/

variable (options : Report.Options) (store : Files.Store) {line : List Char}
  (lines : List (List Char))

/-- A line that closes the dialogue is the last one that counts. -/
theorem exchange_cons_of_closes (h : closes line = true) :
    exchange options store (line :: lines) = ⟨.ok (), prompt ++ farewell, "", store⟩ := by
  have hreact : react options store line = .close := by
    show (if closes line then Reaction.close else _) = _
    rw [if_pos h]
  rw [exchange, hreact]

/-- **Any other line is answered by itself**, and the dialogue goes on as if it had not been
there. -/
theorem exchange_cons (tool : LayoutTool) (own : Files.Store) (h : closes line = false) :
    exchange options store (line :: lines) = (exchange options store lines).after
      (prompt ++ answer (Report.onText { options with drawing := .absent } tool own) line) := by
  have hopen : ¬ closes line = true := by rw [h]; simp
  unfold answer
  by_cases hempty : (Text.trim line).isEmpty = true
  · have hreact : react options store line = .pass := by
      show (if closes line then Reaction.close else _) = _
      rw [if_neg hopen, if_pos hempty]
    rw [exchange, hreact, if_pos hempty, String.append_empty]
  · have hundrawn : ({ options with drawing := .absent } : Report.Options).drawing = .absent := rfl
    obtain ⟨isProgram, hreport⟩ :=
      Report.onText_alone hundrawn .missing tool store own (String.ofList (Text.trim line))
    have hreact : react options store line = .reply (Report.onText
        { options with drawing := .absent } .missing store (String.ofList (Text.trim line))) := by
      show (if closes line then Reaction.close else _) = _
      rw [if_neg hopen, if_neg hempty]
    rw [exchange, hreact, if_neg hempty, hreport]

/-! ## A whole dialogue -/

/-- **A dialogue answers its lines one by one**, comes to its end and leaves the files alone. -/
theorem exchange_eq_answers (tool : LayoutTool) (own : Files.Store) :
    exchange options store lines = ⟨.ok (),
      answers (Report.onText { options with drawing := .absent } tool own) lines, "", store⟩ := by
  induction lines with
  | nil => rfl
  | cons line lines ih =>
    cases hline : closes line with
    | true => rw [exchange_cons_of_closes options store lines hline, answers_cons_of_closes _ _ hline]
    | false => rw [exchange_cons options store lines tool own hline, ih, answers_cons _ _ hline, Run.after]

/-- What stands behind a line that closes the dialogue has no part in its answers. -/
theorem answers_closed (report : String → Run Bool) {line : List Char} (h : closes line = true)
    (before after : List (List Char)) :
    answers report (before ++ line :: after) = answers report (before ++ [line]) := by
  induction before with
  | nil =>
    rw [List.nil_append, List.nil_append, answers_cons_of_closes _ _ h,
      answers_cons_of_closes _ _ h]
  | cons first before ih =>
    rw [List.cons_append, List.cons_append]
    cases hfirst : closes first with
    | true => rw [answers_cons_of_closes _ _ hfirst, answers_cons_of_closes _ _ hfirst]
    | false => rw [answers_cons _ _ hfirst, answers_cons _ _ hfirst, ih]

/-! ## Lines of an input -/

/-- The first line of an input ends before its first line feed. -/
theorem inputLines_append {line : List Char} (h : '\n' ∉ line) (rest : List Char) :
    inputLines (line ++ '\n' :: rest) = line :: inputLines rest := by
  induction line with
  | nil =>
    rw [List.nil_append, inputLines]
    rfl
  | cons c line ih =>
    have hc : c ≠ '\n' := fun heq => h (heq ▸ List.mem_cons_self)
    have hline : '\n' ∉ line := fun hmem => h (List.mem_cons_of_mem c hmem)
    rw [List.cons_append, inputLines, if_neg hc, ih hline]

/-- **Any lines are the lines of an input**, the one in which each of them ends with a line feed. -/
theorem inputLines_typed {lines : List (List Char)} (h : ∀ line ∈ lines, '\n' ∉ line) :
    inputLines (lines.flatMap (· ++ ['\n'])) = lines := by
  induction lines with
  | nil => rfl
  | cons line lines ih =>
    obtain ⟨hline, hlines⟩ := List.forall_mem_cons.mp h
    rw [List.flatMap_cons, List.append_assoc, List.singleton_append, inputLines_append hline,
      ih hlines]

/-- **A dialogue is its lines, one by one.** For any input it writes the transcript of the lines of
the input, in which the answer to a line is what a report on that line writes by itself, with any
layout tool and on any files. It always comes to its end and leaves the files alone. Any lines can be
typed, and those behind a line that closes the dialogue change nothing. -/
theorem run_line_by_line (options : Report.Options) (store : Files.Store) (tool : LayoutTool)
    (own : Files.Store) :
    let report := Report.onText { options with drawing := .absent } tool own
    (∀ input : String, run options store input =
      ⟨.ok (), transcript report (inputLines input.toList), "", store⟩) ∧
    (∀ lines : List (List Char), (∀ line ∈ lines, '\n' ∉ line) →
      inputLines (lines.flatMap (· ++ ['\n'])) = lines) ∧
    ∀ before line after, closes line = true →
      transcript report (before ++ line :: after) = transcript report (before ++ [line]) := by
  intro report
  refine ⟨fun input => ?_, fun lines => inputLines_typed, fun before line after h => ?_⟩
  · rw [run, exchange_eq_answers options store _ tool own]
    rfl
  · rw [transcript, transcript, answers_closed report h]

/-- A line that holds a program, a blank one, one that holds none and one that closes the dialogue
have the answers that they have by themselves, and the line behind them has none. -/
theorem run_five_lines :
    let options : Report.Options := { outline := false, source := true }
    run options ⟨[]⟩ "move up\n \nx=\n QUIT \ndone" = ⟨.ok (), banner ++
      (prompt ++ "\nSource:\nmove up\n" ++ (prompt ++ "" ++ (prompt ++
        "✗ Syntax error at line 1, column 3 (position 2) near '': Expected expression\n" ++
          (prompt ++ farewell)))), "", ⟨[]⟩⟩ ∧
    run options ⟨[]⟩ "move up\n \nx=\n QUIT \n" =
      run options ⟨[]⟩ "move up\n \nx=\n QUIT \ndone" := by
  intro options
  obtain ⟨hrun, htyped, hclosed⟩ := run_line_by_line options ⟨[]⟩ .missing ⟨[]⟩
  have hfive : inputLines "move up\n \nx=\n QUIT \ndone".toList =
      ["move up".toList, [' '], "x=".toList] ++ " QUIT ".toList :: ["done".toList] := by decide
  have hfour : inputLines "move up\n \nx=\n QUIT \n".toList =
      ["move up".toList, [' '], "x=".toList] ++ [" QUIT ".toList] := by
    have htext : "move up\n \nx=\n QUIT \n".toList =
        ["move up".toList, [' '], "x=".toList, " QUIT ".toList].flatMap (· ++ ['\n']) := by decide
    rw [htext]
    exact htyped _ (by decide)
  have hclosing : closes " QUIT ".toList = true := by decide
  have hmove : (Report.onText options .missing ⟨[]⟩ "move up").out = "\nSource:\nmove up\n" := by cbv
  have hsum : (Report.onText options .missing ⟨[]⟩ "x=").out =
      "✗ Syntax error at line 1, column 3 (position 2) near '': Expected expression\n" := by
    have hparse : parseText "x=" =
        .error (.parse (.problem ⟨.parsing, .expected .expression, "", 2, 1, 3⟩)) := by cbv
    rw [Report.onText_of_error _ _ _ hparse]
    decide +kernel
  rw [hrun, hrun, hfive, hfour, hclosed _ _ _ hclosing]
  refine ⟨?_, rfl⟩
  have hopen : ∀ line ∈ ["move up".toList, [' '], "x=".toList], closes line = false := by decide
  rw [transcript, List.cons_append, List.cons_append, List.cons_append, List.nil_append,
    answers_cons _ _ (hopen _ (by decide)), answers_cons _ _ (hopen _ (by decide)),
    answers_cons _ _ (hopen _ (by decide)), answers_cons_of_closes _ _ hclosing]
  rw [← hmove, ← hsum]
  rfl

end Stratagem.Dialogue
