import Stratagem.Text.Cursor

/-!
# Places in a text

A cursor that starts at the beginning of a text and only moves over its characters is determined by
the text before it and the text that is left: `Cursor.between before rest`. Its offset is the length
of the text before it, its line counts the line feeds there, and its column counts the characters
since the last of them.

The load-bearing fact is `advanceBy_between`: moving over a run of characters shifts the run from
the one side to the other. With it a scan can be described by cutting its text into pieces.

`Located` says without a cursor which offset, line and column belong to a spelling in a text.
-/

namespace Stratagem.Text

/-- The line on which a text goes on after `before`. -/
def lineAfter (before : List Char) : Nat := 1 + before.count '\n'

/-- The column in which a text goes on after `before`. -/
def columnAfter (before : List Char) : Nat :=
  1 + (before.reverse.takeWhile (· ≠ '\n')).length

theorem lineAfter_newline (before : List Char) :
    lineAfter (before ++ ['\n']) = lineAfter before + 1 := by
  simp [lineAfter]
  omega

theorem lineAfter_other (before : List Char) {c : Char} (hc : c ≠ '\n') :
    lineAfter (before ++ [c]) = lineAfter before := by
  simp [lineAfter, List.count_append, hc]

theorem columnAfter_newline (before : List Char) : columnAfter (before ++ ['\n']) = 1 := by
  simp [columnAfter]

theorem columnAfter_other (before : List Char) {c : Char} (hc : c ≠ '\n') :
    columnAfter (before ++ [c]) = columnAfter before + 1 := by
  simp [columnAfter, hc]
  omega

namespace Cursor

/-- The cursor that has come past `before` and has `rest` left. -/
def between (before rest : List Char) : Cursor :=
  ⟨rest, before.length, lineAfter before, columnAfter before⟩

theorem start_eq_between (text : List Char) : start text = between [] text := by
  simp [start, between, lineAfter, columnAfter]

@[simp] theorem between_rest (before rest : List Char) : (between before rest).rest = rest := rfl

variable {c : Cursor} {ch : Char} {rest : List Char}

/-- A line feed starts a new line. -/
theorem advance_newline (h : c.rest = '\n' :: rest) :
    c.advance = ⟨rest, c.pos + 1, c.line + 1, 1⟩ := by
  unfold advance
  rw [h]
  rfl

/-- Any other character is a column of its line. -/
theorem advance_other (h : c.rest = ch :: rest) (hch : ch ≠ '\n') :
    c.advance = ⟨rest, c.pos + 1, c.line, c.column + 1⟩ := by
  unfold advance
  rw [h]
  split
  next heq => exact absurd (List.cons.inj heq).1 hch
  next heq =>
    obtain ⟨-, rfl⟩ := List.cons.inj heq
    rfl
  next heq => exact absurd heq (List.cons_ne_nil _ _)

/-- Past the end of the text offset and column count on. -/
theorem advance_end (h : c.rest = []) : c.advance = ⟨[], c.pos + 1, c.line, c.column + 1⟩ := by
  unfold advance
  rw [h]

/-- Moving over one character shifts it to the text before the cursor. -/
theorem advance_between (before : List Char) (c : Char) (rest : List Char) :
    (between before (c :: rest)).advance = between (before ++ [c]) rest := by
  by_cases hc : c = '\n'
  · subst hc
    rw [advance_newline rfl]
    simp [between, lineAfter_newline, columnAfter_newline]
  · rw [advance_other rfl hc]
    simp [between, lineAfter_other before hc, columnAfter_other before hc]

/-- **Moving over a run of characters shifts the run** from the text that is left to the text before
the cursor. -/
theorem advanceBy_between (run : List Char) : ∀ (before rest : List Char),
    (between before (run ++ rest)).advanceBy run.length = between (before ++ run) rest := by
  induction run with
  | nil => intro before rest; simp [advanceBy]
  | cons c run ih =>
    intro before rest
    rw [List.cons_append, List.length_cons, advanceBy, advance_between, ih, List.append_assoc]
    rfl

end Cursor

/-! ## Places told without a cursor -/

/-- `LastNewline text k`: the last line feed of a text is at offset `k`. Where there is none, `k` is
the offset before the first one. -/
inductive LastNewline : (text : List Char) → (offset : Int) → Prop
  | none {text : List Char} (h : '\n' ∉ text) : LastNewline text (-1)
  | last {front back : List Char} (h : '\n' ∉ back) :
    LastNewline (front ++ '\n' :: back) front.length

/-- A line feed at the end is the last one. -/
theorem LastNewline.append_newline (text : List Char) :
    LastNewline (text ++ ['\n']) text.length := .last List.not_mem_nil

/-- Behind any other character the last line feed is where it was. -/
theorem LastNewline.append_other {text : List Char} {offset : Int} (h : LastNewline text offset)
    {c : Char} (hc : c ≠ '\n') : LastNewline (text ++ [c]) offset := by
  have hstill : ∀ {back : List Char}, '\n' ∉ back → '\n' ∉ back ++ [c] := by
    intro back hback hmem
    rcases List.mem_append.mp hmem with hmem | hmem
    · exact hback hmem
    · exact hc (List.mem_singleton.mp hmem).symm
  cases h with
  | none hnone => exact .none (hstill hnone)
  | last hback =>
    rw [List.append_assoc, List.cons_append]
    exact .last (hstill hback)

/-- `Located text lexeme position line column`: the spelling stands in the text at that offset, the
line is one more than the line feeds before it, and the column is the distance from the last of
them. -/
def Located (text : List Char) (lexeme : String) (position line column : Int) : Prop :=
  ∃ before after last, text = before ++ (lexeme.toList ++ after) ∧ position = before.length ∧
    line = 1 + before.count '\n' ∧ LastNewline before last ∧ column = position - last

/-- The column is the distance from the last line feed. -/
theorem lastNewline_columnAfter (before : List Char) :
    LastNewline before (before.length - columnAfter before) := by
  -- from the end back to the first line feed that is met there
  generalize hrun : before.reverse.takeWhile (· ≠ '\n') = run
  generalize hrest : before.reverse.dropWhile (· ≠ '\n') = rest
  have hsplit : before = rest.reverse ++ run.reverse := by
    rw [← List.reverse_append, ← hrun, ← hrest, List.takeWhile_append_dropWhile,
      List.reverse_reverse]
  have hnone : '\n' ∉ run.reverse := by
    rw [List.mem_reverse, ← hrun]
    intro hmem
    simpa using List.all_eq_true.mp List.all_takeWhile _ hmem
  have hcolumn : columnAfter before = 1 + run.length := by rw [columnAfter, hrun]
  rw [hcolumn, hsplit]
  cases rest with
  | nil =>
    have hoffset : (((([] : List Char).reverse ++ run.reverse).length : Int)
        - (1 + run.length : Nat)) = -1 := by
      rw [List.reverse_nil, List.nil_append, List.length_reverse]
      omega
    rw [hoffset]
    exact .none hnone
  | cons c rest =>
    have hc : c = '\n' := by
      have hstop := List.head?_dropWhile_not (· ≠ '\n') before.reverse
      rw [hrest] at hstop
      simpa using hstop
    subst hc
    have hoffset : (((('\n' :: rest).reverse ++ run.reverse).length : Int)
        - (1 + run.length : Nat)) = rest.reverse.length := by
      rw [List.length_append, List.length_reverse, List.length_reverse, List.length_reverse,
        List.length_cons]
      omega
    rw [hoffset, List.reverse_cons, List.append_assoc]
    exact .last hnone

/-- **What stands after a text is located** by the counts of the cursor there. -/
theorem located_after (before lexeme after : List Char) :
    Located (before ++ (lexeme ++ after)) (String.ofList lexeme) before.length
      (lineAfter before) (columnAfter before) := by
  refine ⟨before, after, _, ?_, rfl, ?_, lastNewline_columnAfter before, ?_⟩
  · rw [String.toList_ofList]
  · simp [lineAfter]
  · omega

end Stratagem.Text
