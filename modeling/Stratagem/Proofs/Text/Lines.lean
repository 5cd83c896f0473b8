import Stratagem.Text.Blank

/-!
# The lines of a text

A text falls into lines at every character that ends one, and there are ten of these. So texts that
are joined by line feeds are the lines of what they are joined to, if no such character is in them
(`lines_intercalate`): nothing is lost by the joining.

All ten are blanks (`isBlank_of_isLineBreak`), so they are not in names and numbers.
-/

namespace Stratagem.Text

/-- The characters that end a line. -/
def lineBreaks : List Char := [
    '\n', '\r', '\x0b', '\x0c', '\x1c', '\x1d', '\x1e', '\u0085', '\u2028', '\u2029']

/-- Whether a character ends a line. -/
def isLineBreak (c : Char) : Bool := lineBreaks.contains c

theorem isBlank_of_isLineBreak {c : Char} (h : isLineBreak c = true) : isBlank c = true := by
  have hall : lineBreaks.all isBlank = true := rfl
  exact List.all_eq_true.mp hall c (List.contains_iff_mem.mp h)

/-- What is no blank ends no line. -/
theorem isLineBreak_eq_false_of_isBlank {c : Char} (h : isBlank c = false) :
    isLineBreak c = false := by
  rw [Bool.eq_false_iff] at h ⊢
  exact fun hbreak => h (isBlank_of_isLineBreak hbreak)

/-- The lines of a text. -/
def lines (text : String) : List String := (text.toList.splitOnP isLineBreak).map String.ofList

/-- Whether a text stays on one line. -/
def OneLine (text : String) : Prop := ∀ c ∈ text.toList, isLineBreak c = false

instance (text : String) : Decidable (OneLine text) :=
  List.decidableBAll (fun c => isLineBreak c = false) text.toList

theorem OneLine.append {s t : String} (hs : OneLine s) (ht : OneLine t) : OneLine (s ++ t) := by
  rw [OneLine, String.toList_append, List.forall_mem_append]
  exact ⟨hs, ht⟩

theorem lines_of_oneLine {text : String} (h : OneLine text) : lines text = [text] := by
  rw [lines, List.splitOnP_eq_singleton h, List.map_singleton, String.ofList_toList]

/-- **The lines of joined texts are the texts.** -/
theorem lines_intercalate {texts : List String} (hne : texts ≠ []) (h : ∀ s ∈ texts, OneLine s) :
    lines ("\n".intercalate texts) = texts := by
  induction texts with
  | nil => exact absurd rfl hne
  | cons s texts ih =>
    obtain ⟨hs, hothers⟩ := List.forall_mem_cons.mp h
    cases texts with
    | nil => exact lines_of_oneLine hs
    | cons t texts =>
      have hjoined : ("\n".intercalate (s :: t :: texts)).toList =
          s.toList ++ '\n' :: ("\n".intercalate (t :: texts)).toList := by
        rw [String.intercalate_cons_cons, String.toList_append, String.toList_append,
          List.append_assoc]
        rfl
      rw [lines, hjoined, List.splitOnP_append_cons_of_forall_mem hs _ rfl, List.map_cons,
        String.ofList_toList, ← lines, ih (List.cons_ne_nil _ _) hothers]

end Stratagem.Text
