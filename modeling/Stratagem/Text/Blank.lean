import Stratagem.Text.Ranges

/-!
# Blank characters

Blanks separate words and are otherwise ignored: the separators of Unicode 14, the line controls
and the four information separators `0x1C` to `0x1F`.
-/

namespace Stratagem.Text

/-- The blank characters as closed ranges in increasing order. -/
def blankRanges : List (Nat × Nat) := [
    (0x9, 0xD), (0x1C, 0x20), (0x85, 0x85), (0xA0, 0xA0), (0x1680, 0x1680), (0x2000, 0x200A),
    (0x2028, 0x2029), (0x202F, 0x202F), (0x205F, 0x205F), (0x3000, 0x3000)]

/-- Whether `c` is a blank. -/
def isBlank (c : Char) : Bool := inRanges blankRanges c

/-- Every character that core calls whitespace is a blank. -/
theorem isBlank_of_isWhitespace {c : Char} (h : c.isWhitespace = true) : isBlank c = true := by
  simp only [Char.isWhitespace, Bool.or_eq_true, decide_eq_true_eq] at h
  rcases h with ((rfl | rfl) | rfl) | rfl <;> decide

/-- The text without the blanks at its two ends. -/
def trim (text : List Char) : List Char :=
  ((text.dropWhile isBlank).reverse.dropWhile isBlank).reverse

end Stratagem.Text
