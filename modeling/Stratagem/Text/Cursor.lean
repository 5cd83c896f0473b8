import Stratagem.Text.Blank

/-!
# A place in a text

A cursor holds what is left of the text and how far it has come: the offset from zero, the line and
the column from one. Moving on by one character is the only way a cursor changes, so every run over
the text is a number of such moves.

The text left is a suffix of the whole text (`advanceBy_rest`); past the end the offset and the
column still count on.
-/

namespace Stratagem.Text

/-- A place in a text. -/
structure Cursor where
  rest : List Char
  pos : Nat
  line : Nat
  column : Nat
  deriving DecidableEq, Repr

namespace Cursor

/-- The start of a text. -/
def start (text : List Char) : Cursor := ⟨text, 0, 1, 1⟩

/-- The character at the cursor. -/
def char? (c : Cursor) : Option Char := c.rest.head?

/-- The cursor one character further on. -/
def advance (c : Cursor) : Cursor :=
  match c.rest with
  | '\n' :: rest => ⟨rest, c.pos + 1, c.line + 1, 1⟩
  | _ :: rest => ⟨rest, c.pos + 1, c.line, c.column + 1⟩
  | [] => ⟨[], c.pos + 1, c.line, c.column + 1⟩

/-- The cursor `count` characters further on. -/
def advanceBy : (count : Nat) → Cursor → Cursor
  | 0, c => c
  | count + 1, c => advanceBy count c.advance

@[simp] theorem advance_rest (c : Cursor) : c.advance.rest = c.rest.drop 1 := by
  unfold advance; split <;> simp_all

@[simp] theorem advance_pos (c : Cursor) : c.advance.pos = c.pos + 1 := by
  unfold advance; split <;> rfl

@[simp] theorem advanceBy_rest (count : Nat) (c : Cursor) :
    (c.advanceBy count).rest = c.rest.drop count := by
  induction count generalizing c with
  | zero => simp [advanceBy]
  | succ count ih => simp [advanceBy, ih]

@[simp] theorem advanceBy_pos (count : Nat) (c : Cursor) :
    (c.advanceBy count).pos = c.pos + count := by
  induction count generalizing c with
  | zero => simp [advanceBy]
  | succ count ih => simp only [advanceBy, ih, advance_pos]; omega

/-- The cursor past the longest run of characters that satisfy `p`. -/
def skipWhile (p : Char → Bool) (c : Cursor) : Cursor :=
  c.advanceBy (c.rest.takeWhile p).length

/-- The cursor past the blanks. -/
def skipBlanks (c : Cursor) : Cursor := c.skipWhile isBlank

/-- The cursor at the end of the line, before the line feed. -/
def skipLine (c : Cursor) : Cursor := c.skipWhile (· ≠ '\n')

end Cursor

/-- The length of the gap at the start of a text: blanks, and comments that run from a number sign
to the end of the line. The flag says whether a comment is open. -/
def gapLength : (comment : Bool) → List Char → Nat
  | _, [] => 0
  | true, c :: rest => 1 + gapLength (c ≠ '\n') rest
  | false, c :: rest =>
    if isBlank c then 1 + gapLength false rest
    else if c = '#' then 1 + gapLength true rest
    else 0

/-- A gap is part of the text. -/
theorem gapLength_le (comment : Bool) (text : List Char) :
    gapLength comment text ≤ text.length := by
  induction text generalizing comment with
  | nil => cases comment <;> simp [gapLength]
  | cons c rest ih =>
    cases comment with
    | true => have := ih (c ≠ '\n'); simp only [gapLength, List.length_cons]; omega
    | false =>
      have h₁ := ih false
      have h₂ := ih true
      simp only [gapLength, List.length_cons]
      split
      · omega
      · split <;> omega

/-- The cursor past the gap, at the start of the next token or at the end. -/
def Cursor.skipGap (c : Cursor) : Cursor := c.advanceBy (gapLength false c.rest)

end Stratagem.Text
