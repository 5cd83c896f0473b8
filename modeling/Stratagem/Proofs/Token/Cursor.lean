import Mathlib
import Stratagem.Proofs.Text.Place
import Stratagem.Token.Session

/-!
# The cursor of a scanning session

A session takes calls in any order, also where they do not apply, past the end of the text and after
calls that failed. Its cursor keeps step with the text (`InStep`): what is left is the text from the
offset on, the line counts the line feeds before the offset, and the column is the distance from the
last of them.

All that a call does to a cursor is to move it on, some number of characters (`onward_perform`), so
the only thing to look at is one move (`InStep.advance`). Past the end of the text there is nothing
to move over. Offset and column count on together there, so their difference stays, and that
difference is what the invariant is about: the text before the offset is then the whole text, with
the same last line feed.
-/

namespace Stratagem.Text.Cursor

/-- `InStep text c`: the cursor stands at its offset in the text, which may be past the end, with
the line and the column of that place. -/
structure InStep (text : List Char) (c : Cursor) : Prop where
  /-- What is left is the text from the offset on. -/
  rest : c.rest = text.drop c.pos
  /-- The line is one more than the line feeds before the offset. -/
  line : c.line = 1 + (text.take c.pos).count '\n'
  /-- The column is the distance from the last of them. -/
  column : LastNewline (text.take c.pos) (c.pos - c.column)

theorem inStep_start (text : List Char) : InStep text (start text) := by
  refine ⟨rfl, rfl, ?_⟩
  show LastNewline [] (-1)
  exact .none List.not_mem_nil

namespace InStep

variable {text : List Char} {c : Cursor}

/-- The character at the cursor is that of the text at the offset. Past the end there is none. -/
theorem char (h : InStep text c) : c.char? = text[c.pos]? := by
  rw [char?, h.rest, List.head?_drop]

/-- **One move keeps step**, inside the text and past its end. -/
theorem advance (h : InStep text c) : InStep text c.advance := by
  have hrest : c.advance.rest = text.drop (c.pos + 1) := by
    rw [advance_rest, h.rest, List.drop_drop]
  by_cases hend : c.pos < text.length
  · have htake : text.take (c.pos + 1) = text.take c.pos ++ [text[c.pos]] :=
      List.take_succ_eq_append_getElem hend
    have hleft : c.rest = text[c.pos] :: text.drop (c.pos + 1) := by
      rw [h.rest, List.drop_eq_getElem_cons hend]
    by_cases hfeed : text[c.pos] = '\n'
    · rw [hfeed] at hleft htake
      rw [advance_newline hleft]
      refine ⟨rfl, ?_, ?_⟩
      · show c.line + 1 = 1 + (text.take (c.pos + 1)).count '\n'
        rw [htake, List.count_append, List.count_singleton_self, h.line]
        omega
      · show LastNewline (text.take (c.pos + 1)) ((c.pos + 1 : Nat) - (1 : Nat))
        have hlength : ((c.pos + 1 : Nat) : Int) - (1 : Nat) = (text.take c.pos).length := by
          rw [List.length_take]
          omega
        rw [htake, hlength]
        exact .append_newline _
    · rw [advance_other hleft hfeed]
      refine ⟨rfl, ?_, ?_⟩
      · show c.line = 1 + (text.take (c.pos + 1)).count '\n'
        rw [htake, List.count_append, List.count_singleton, h.line]
        simp [hfeed]
      · show LastNewline (text.take (c.pos + 1)) ((c.pos + 1 : Nat) - (c.column + 1 : Nat))
        have hsame : ((c.pos + 1 : Nat) : Int) - (c.column + 1 : Nat) = c.pos - c.column := by
          omega
        rw [htake, hsame]
        exact h.column.append_other hfeed
  · have hnone : c.rest = [] := by
      rw [h.rest, List.drop_eq_nil_of_le (by omega)]
    have htake : text.take (c.pos + 1) = text.take c.pos := by
      rw [List.take_of_length_le (by omega), List.take_of_length_le (by omega)]
    rw [advance_end hnone]
    refine ⟨?_, ?_, ?_⟩
    · show [] = text.drop (c.pos + 1)
      rw [List.drop_eq_nil_of_le (by omega)]
    · show c.line = 1 + (text.take (c.pos + 1)).count '\n'
      rw [htake, h.line]
    · show LastNewline (text.take (c.pos + 1)) ((c.pos + 1 : Nat) - (c.column + 1 : Nat))
      have hsame : ((c.pos + 1 : Nat) : Int) - (c.column + 1 : Nat) = c.pos - c.column := by
        omega
      rw [htake, hsame]
      exact h.column

/-- Any number of moves keeps step. -/
theorem advanceBy (h : InStep text c) (count : Nat) : InStep text (c.advanceBy count) := by
  induction count generalizing c with
  | zero => exact h
  | succ count ih => exact ih h.advance

end InStep

/-! ## Cursors further on -/

/-- `Onward c c'`: the second cursor is the first one some number of characters further on. -/
def Onward (c c' : Cursor) : Prop := ∃ count, c' = c.advanceBy count

namespace Onward

variable {text : List Char} {c c' c'' : Cursor}

theorem refl (c : Cursor) : Onward c c := ⟨0, rfl⟩

theorem advanceBy_add (c : Cursor) (m n : Nat) :
    (c.advanceBy m).advanceBy n = c.advanceBy (m + n) := by
  induction m generalizing c with
  | zero => rw [Nat.zero_add, Cursor.advanceBy]
  | succ m ih => rw [Nat.succ_add, Cursor.advanceBy, Cursor.advanceBy, ih]

theorem trans (h : Onward c c') (h' : Onward c' c'') : Onward c c'' := by
  obtain ⟨m, rfl⟩ := h
  obtain ⟨n, rfl⟩ := h'
  exact ⟨m + n, advanceBy_add c m n⟩

theorem pos_le (h : Onward c c') : c.pos ≤ c'.pos := by
  obtain ⟨count, rfl⟩ := h
  rw [advanceBy_pos]
  omega

theorem inStep (h : Onward c c') (hc : InStep text c) : InStep text c' := by
  obtain ⟨count, rfl⟩ := h
  exact hc.advanceBy count

end Onward

/-! ## What the scanner does to a cursor -/

theorem onward_tokenHere (c : Cursor) : Onward c c.tokenHere.2 := by
  unfold tokenHere
  split
  next => exact .refl c
  next ch _ _ =>
    by_cases hdigit : isDigit ch = true
    · rw [if_pos hdigit]
      exact ⟨_, rfl⟩
    · rw [if_neg hdigit]
      by_cases hletter : isLetter ch = true
      · rw [if_pos hletter]
        exact ⟨_, rfl⟩
      · rw [if_neg hletter]
        split
        next => exact ⟨1, rfl⟩
        next => exact .refl c

theorem onward_nextToken (c : Cursor) : Onward c c.nextToken.2 :=
  Onward.trans ⟨_, rfl⟩ (onward_tokenHere c.skipGap)

/-- Reading all tokens moves on, up to the end or to the problem that stops it. -/
theorem onward_tokens (c : Cursor) : Onward c c.tokens.2 := by
  fun_induction tokens c with
  | case1 c d c' hnext =>
    have hmove := onward_nextToken c
    rwa [hnext] at hmove
  | case2 c t c' hnext hend =>
    have hmove := onward_nextToken c
    rwa [hnext] at hmove
  | case3 c t c' hnext hmore _ rest c'' htokens ih =>
    have hmove := onward_nextToken c
    rw [hnext] at hmove
    rw [htokens] at ih
    exact hmove.trans ih

end Stratagem.Text.Cursor

namespace Stratagem.Scan

open Text

/-! ## Calls -/

/-- The cursor that a call leaves, without its answer. -/
def cursorAfter (c : Cursor) : Call → Cursor
  | .advance => c.advance
  | .skipBlanks => c.skipBlanks
  | .skipLine => c.skipLine
  | .number => c.number.2
  | .word => c.word.2
  | .nextToken => c.nextToken.2
  | .tokens => c.tokens.2
  | .problem .. => c

theorem perform_snd (c : Cursor) (call : Call) : (perform c call).2 = cursorAfter c call := by
  cases call with
  | number | word | nextToken | tokens =>
    rw [perform]
    split
    next heq => exact (congrArg Prod.snd heq).symm
    next heq => exact (congrArg Prod.snd heq).symm
  | advance | skipBlanks | skipLine | problem => rfl

/-- **A call only moves the cursor on**, whether it returns or fails. -/
theorem onward_perform (c : Cursor) (call : Call) : c.Onward (perform c call).2 := by
  rw [perform_snd]
  cases call with
  | advance => exact ⟨1, rfl⟩
  | skipBlanks | skipLine | number => exact ⟨_, rfl⟩
  | word =>
    show c.Onward c.word.2
    unfold Cursor.word
    split
    · exact ⟨1, rfl⟩
    · exact ⟨_, rfl⟩
  | nextToken => exact c.onward_nextToken
  | tokens => exact c.onward_tokens
  | problem => exact .refl c

/-- The cursors of a session: the first one, and the one after each call. -/
def cursors (c : Cursor) (calls : List Call) : List Cursor := c :: (session c calls).map Prod.snd

theorem cursors_cons (c : Cursor) (call : Call) (calls : List Call) :
    cursors c (call :: calls) = c :: cursors (perform c call).2 calls := rfl

theorem onward_of_mem_cursors {c c' : Cursor} {calls : List Call} (h : c' ∈ cursors c calls) :
    c.Onward c' := by
  induction calls generalizing c with
  | nil =>
    obtain rfl := List.mem_singleton.mp h
    exact .refl c'
  | cons call calls ih =>
    rw [cursors_cons] at h
    rcases List.mem_cons.mp h with rfl | h
    · exact .refl c'
    · exact (onward_perform c call).trans (ih h)

/-- **Every later cursor of a session lies further on.** -/
theorem pairwise_cursors (c : Cursor) (calls : List Call) :
    (cursors c calls).Pairwise Cursor.Onward := by
  induction calls generalizing c with
  | nil => exact List.pairwise_singleton _ _
  | cons call calls ih =>
    rw [cursors_cons]
    refine List.pairwise_cons.mpr ⟨fun c' hc' => ?_, ih _⟩
    exact (onward_perform c call).trans (onward_of_mem_cursors hc')

/-- **The cursor keeps step with the text through any session**, from any offset, past the end of
the text too, for any calls, whether they return or fail: its character is that of the text at the
offset, its line counts the line feeds before the offset, its column is the distance from the last of
them, and the offset never goes back. -/
theorem session_in_step (text : List Char) (offset : Nat) (calls : List Call) :
    let all := cursors ((Cursor.start text).advanceBy offset) calls
    (∀ c ∈ all, c.char? = text[c.pos]? ∧ c.rest = text.drop c.pos ∧
      c.line = 1 + (text.take c.pos).count '\n' ∧
      ∃ last, LastNewline (text.take c.pos) last ∧ c.column = c.pos - last) ∧
    all.Pairwise (fun c c' => c.pos ≤ c'.pos) := by
  have hfirst : Cursor.InStep text ((Cursor.start text).advanceBy offset) :=
    (Cursor.inStep_start text).advanceBy offset
  intro all
  constructor
  · intro c hc
    have hstep : Cursor.InStep text c := (onward_of_mem_cursors hc).inStep hfirst
    refine ⟨hstep.char, hstep.rest, hstep.line, _, hstep.column, ?_⟩
    omega
  · exact (pairwise_cursors _ calls).imp Cursor.Onward.pos_le

/-- A session that starts at a line feed, asks for a word behind the end and goes on after that has
failed. -/
theorem session_past_the_end :
    let text := "a\nb".toList
    let all := cursors ((Cursor.start text).advanceBy 1) [.nextToken, .word, .advance]
    all.map (fun c => (c.pos, c.line, c.column)) = [(1, 1, 2), (3, 2, 2), (4, 2, 3), (5, 2, 4)] ∧
    (∀ c ∈ all, ∃ last, LastNewline (text.take c.pos) last ∧ c.column = c.pos - last) ∧
    all.Pairwise fun c c' => c.pos ≤ c'.pos := by
  intro text all
  obtain ⟨hplaces, hordered⟩ := session_in_step text 1 [.nextToken, .word, .advance]
  exact ⟨by cbv, fun c hc => (hplaces c hc).2.2.2, hordered⟩

end Stratagem.Scan
