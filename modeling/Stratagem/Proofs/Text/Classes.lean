import Stratagem.Text.Blank
import Stratagem.Text.Digit
import Stratagem.Text.Letter
import Stratagem.Token.Basic

/-!
# The classes of characters do not overlap

A scanner asks for each character whether it is a blank, then whether it opens a comment, then
whether it is a digit, a letter or a symbol. The order of the questions does not matter, since no
character belongs to two of the classes. Letters, digits and blanks are given by ranges of code
points, so it is enough to compare the tables range by range.
-/

namespace Stratagem.Text

/-- Whether two closed ranges have no number in common. -/
def rangesApart (r s : Nat × Nat) : Bool := Nat.blt r.2 s.1 || Nat.blt s.2 r.1

/-- A character of one list of ranges is in none that is apart from all of them. -/
theorem not_inRanges_of_apart (rs ss : List (Nat × Nat))
    (h : rs.all (fun r => ss.all (rangesApart r)) = true) {c : Char}
    (hc : inRanges rs c = true) : inRanges ss c = false := by
  rw [Bool.eq_false_iff]
  intro hs
  obtain ⟨r, hr, hr₁, hr₂⟩ := inRanges_iff.mp hc
  obtain ⟨s, hs, hs₁, hs₂⟩ := inRanges_iff.mp hs
  have hapart := List.all_eq_true.mp (List.all_eq_true.mp h r hr) s hs
  simp only [rangesApart, Bool.or_eq_true, Nat.blt_eq] at hapart
  omega

/-- The letters as ranges, those of ASCII included. -/
def allLetterRanges : List (Nat × Nat) := (0x41, 0x5A) :: (0x61, 0x7A) :: letterRanges

/-- The digits as ranges, ten for each script. -/
def digitRanges : List (Nat × Nat) := digitZeros.map fun origin => (origin, origin + 9)

/-- The tables of letters, digits and blanks are apart from each other. -/
theorem tables_apart :
    allLetterRanges.all (fun r => digitRanges.all (rangesApart r)) = true ∧
    allLetterRanges.all (fun r => blankRanges.all (rangesApart r)) = true ∧
    digitRanges.all (fun r => blankRanges.all (rangesApart r)) = true := by
  decide +kernel

theorem inRanges_of_isLetter {c : Char} (hc : isLetter c = true) :
    inRanges allLetterRanges c = true := by
  unfold isLetter at hc
  split at hc
  · have hcase : (c.isUpper || c.isLower) = true := hc
    rcases Bool.or_eq_true_iff.mp hcase with hupper | hlower
    · have hrange : 'A'.val ≤ c.val ∧ c.val ≤ 'Z'.val := of_decide_eq_true hupper
      simp only [UInt32.le_iff_toNat_le] at hrange
      exact inRanges_iff.mpr ⟨(0x41, 0x5A), by simp [allLetterRanges], hrange⟩
    · have hrange : (decide ('a'.val ≤ c.val) && decide (c.val ≤ 'z'.val)) = true := hlower
      simp only [Bool.and_eq_true, decide_eq_true_eq, UInt32.le_iff_toNat_le] at hrange
      exact inRanges_iff.mpr ⟨(0x61, 0x7A), by simp [allLetterRanges], hrange⟩
  · obtain ⟨r, hr, hle⟩ := inRanges_iff.mp hc
    exact inRanges_iff.mpr ⟨r, by simp [allLetterRanges, hr], hle⟩

theorem inRanges_of_isDigit {c : Char} (hc : isDigit c = true) :
    inRanges digitRanges c = true := by
  simp only [isDigit, digitValue?, Option.isSome_map, List.find?_isSome, Bool.and_eq_true,
    decide_eq_true_eq] at hc
  obtain ⟨origin, hmem, hle, hlt⟩ := hc
  exact inRanges_iff.mpr
    ⟨(origin, origin + 9), List.mem_map_of_mem (f := fun z => (z, z + 9)) hmem, hle, by omega⟩

theorem isDigit_eq_false_of_isLetter {c : Char} (hc : isLetter c = true) : isDigit c = false := by
  rw [Bool.eq_false_iff]
  intro hd
  obtain ⟨hapart, -, -⟩ := tables_apart
  have hnone := not_inRanges_of_apart _ _ hapart (inRanges_of_isLetter hc)
  rw [inRanges_of_isDigit hd] at hnone
  simp at hnone

theorem isBlank_eq_false_of_isLetter {c : Char} (hc : isLetter c = true) : isBlank c = false := by
  obtain ⟨-, hapart, -⟩ := tables_apart
  exact not_inRanges_of_apart _ _ hapart (inRanges_of_isLetter hc)

theorem isBlank_eq_false_of_isDigit {c : Char} (hc : isDigit c = true) : isBlank c = false := by
  obtain ⟨-, -, hapart⟩ := tables_apart
  exact not_inRanges_of_apart _ _ hapart (inRanges_of_isDigit hc)

theorem mem_symbols {c : Char} {kind : Token.Kind} (h : Token.Kind.ofSymbol? c = some kind) :
    (c, kind) ∈ Token.Kind.symbols := by
  obtain ⟨before, after, hsplit, -⟩ := List.lookup_eq_some_iff.mp h
  rw [hsplit]
  simp

/-- A symbol is no blank, digit or letter, and does not open a comment. -/
theorem classes_of_symbol {c : Char} {kind : Token.Kind}
    (h : Token.Kind.ofSymbol? c = some kind) :
    isBlank c = false ∧ c ≠ '#' ∧ isDigit c = false ∧ isLetter c = false := by
  have hall : ∀ entry ∈ Token.Kind.symbols, isBlank entry.1 = false ∧ entry.1 ≠ '#' ∧
      isDigit entry.1 = false ∧ isLetter entry.1 = false := by decide +kernel
  exact hall (c, kind) (mem_symbols h)

end Stratagem.Text
