import Mathlib
import Stratagem.Proofs.Parse.Marker
import Stratagem.Proofs.Source.Outcome
import Stratagem.Proofs.Token.Opening

/-!
# Tokens without their end marker

The tokens of a text may be parsed without the end marker that the scanner puts behind them. If they
run out, the problem is reported at the marker that the parser puts there itself. Its offset is
where the last token ends, so gaps at the end of the text do not count. Its line and its column are
always one, so the report contradicts itself unless the text has no tokens at all
(`report_of_unmarked`).
-/

namespace Stratagem

open Parse Text

/-- No token of a text is spelled by nothing. -/
theorem Token.Genuine.lexeme_ne_empty {t : Token} (h : t.Genuine) : t.lexeme ≠ "" := by
  intro hempty
  apply Lexeme.ne_nil h
  rw [hempty]
  rfl

/-- An opening ends with the lexeme of its last token. -/
theorem Opening.ends {before front rest : List Char} {us : List Token}
    (h : Opening before front rest us) :
    us = [] ∧ front = [] ∨
    ∃ last lead, us.getLast? = some last ∧ front = lead ++ last.lexeme.toList ∧
      last.pos = (before ++ lead).length := by
  induction h with
  | nil => exact .inl ⟨rfl, rfl⟩
  | @cons before gap lexeme front rest kind value us _ _ _ _ ih =>
    right
    rcases ih with ⟨rfl, rfl⟩ | ⟨last, lead, hlast, rfl, hpos⟩
    · refine ⟨tokenAfter (before ++ gap) kind lexeme value, gap, rfl, ?_, rfl⟩
      simp [tokenAfter]
    · refine ⟨last, gap ++ (lexeme ++ lead), ?_, by simp, ?_⟩
      · rw [List.getLast?_cons, hlast]
        rfl
      · rw [hpos]
        simp

/-- The parser's end marker stands where an opening ends. -/
theorem Opening.endBehind_pos {front rest : List Char} {us : List Token}
    (h : Opening [] front rest us) : (endBehind us).pos = front.length := by
  unfold endBehind
  rcases h.ends with ⟨rfl, rfl⟩ | ⟨last, lead, hlast, rfl, hpos⟩
  · rfl
  · rw [hlast]
    show last.pos + last.lexeme.length = _
    rw [hpos, List.nil_append, List.length_append, String.length_toList, Int.natCast_add]

/-- A problem of tokens without an end marker is at one of them or at the parser's own marker. -/
theorem atToken_of_unmarked {us : List Token} {d : Diagnostic} (hus : ∀ t ∈ us, t.Genuine)
    (hparse : parse us = .error (.problem d)) (hmarker : d.lexeme = "") :
    ∃ what, d = Diagnostic.atToken (endBehind us) (.expected what) := by
  rw [parse_eq_endBehind fun t ht => (hus t ht).kind_ne_eof] at hparse
  obtain ⟨t, ht, what, rfl⟩ := exists_atToken_of_problem ⟨endBehind us, by simp, rfl⟩ hparse
  rcases List.mem_append.mp ht with ht | ht
  · exact absurd hmarker (hus t ht).lexeme_ne_empty
  · rw [List.mem_singleton.mp ht]
    exact ⟨what, rfl⟩

/-- On the first line and in the first column stands nothing but the beginning of a text. -/
theorem located_one_one_iff {text : List Char} {position : Nat} :
    Located text "" position 1 1 ↔ position = 0 := by
  constructor
  · rintro ⟨before, after, last, -, hposition, hline, hlast, hcolumn⟩
    cases hlast with
    | none => omega
    | last =>
      -- a line feed before the place makes it a later line
      simp only [List.count_append, List.count_cons_self] at hline
      omega
  · rintro rfl
    exact ⟨[], text, -1, rfl, rfl, rfl, .none (by simp), rfl⟩

/-- **What is missing behind the tokens of a text**, taken without the scanner's end marker, is
reported where the last of them ends, with no spelling, always on line one and in column one. Line
and column belong to that offset only where the text has no tokens. -/
theorem report_of_unmarked {src : String} {us : List Token} {e : Token} {d : Diagnostic}
    (hscan : scan src = .ok (us ++ [e])) (hparse : parse us = .error (.problem d))
    (hmarker : d.lexeme = "") :
    ∃ front gap, src.toList = front ++ gap ∧ Gap gap [] ∧
      (∀ last ∈ us.getLast?, last.lexeme.toList <:+ front) ∧
      d.position = front.length ∧ d.line = 1 ∧ d.column = 1 ∧
      (Located src.toList d.lexeme d.position d.line d.column ↔ us = []) := by
  have htokens := tokenization_of_scan hscan
  have hgenuine : ∀ t ∈ us, t.Genuine := by
    obtain ⟨us', hsame, hus'⟩ := htokens.genuine
    rwa [(List.append_inj' hsame rfl).1]
  obtain ⟨what, rfl⟩ := atToken_of_unmarked hgenuine hparse hmarker
  obtain ⟨front, gap, htext, hopening, hend⟩ := htokens.split (List.cons_ne_nil e [])
  have hgap : Gap gap [] := by
    cases hend with
    | finish hgap => exact hgap
    | token _ _ _ hnone => cases hnone
  have hposition : (endBehind us).pos = front.length := hopening.endBehind_pos
  refine ⟨front, gap, htext, hgap, ?_, hposition, rfl, rfl, ?_⟩
  · intro last hlast
    rcases hopening.ends with ⟨rfl, -⟩ | ⟨last', lead, hlast', rfl, -⟩
    · simp at hlast
    · obtain rfl : last' = last := by simpa [hlast'] using hlast
      exact List.suffix_append _ _
  · show Located src.toList "" (endBehind us).pos 1 1 ↔ us = []
    rw [hposition, located_one_one_iff, List.length_eq_zero_iff]
    constructor
    · intro hfront
      rcases hopening.ends with ⟨hus, -⟩ | ⟨last, lead, hlast, hlead, -⟩
      · exact hus
      · have hlexeme : last.lexeme.toList = [] := (List.append_eq_nil_iff.mp (hlead ▸ hfront)).2
        exact absurd hlexeme (Lexeme.ne_nil (hgenuine last (List.mem_of_getLast? hlast)))
    · rintro rfl
      rcases hopening.ends with ⟨-, hfront⟩ | ⟨last, lead, hlast, -, -⟩
      · exact hfront
      · simp at hlast

/-- The tokens of an assignment on two lines that breaks off behind an operator. -/
def brokenSum : List Token := [
    { kind := .ident, lexeme := "x" }, { kind := .equal, lexeme := "=", pos := 2, column := 3 },
    { kind := .number, lexeme := "5", value := some 5, pos := 4, line := 2 },
    { kind := .plus, lexeme := "+", pos := 6, line := 2, column := 3 }]

/-- Behind the operator the text is at line two, column four; the report says line one, column
one. -/
theorem brokenSum_misplaced :
    parse brokenSum = .error (.problem ⟨.parsing, .expected .expression, "", 7, 1, 1⟩) ∧
      Located "x =\n5 +\n".toList "" 7 2 4 ∧ ¬ Located "x =\n5 +\n".toList "" 7 1 1 := by
  have hscan : scan "x =\n5 +\n" =
      .ok (brokenSum ++ [{ kind := .eof, lexeme := "", pos := 8, line := 3 }]) := by cbv
  have hparse : parse brokenSum =
      .error (.problem ⟨.parsing, .expected .expression, "", 7, 1, 1⟩) := by cbv
  obtain ⟨-, -, -, -, -, -, -, -, hlocated⟩ := report_of_unmarked hscan hparse rfl
  refine ⟨hparse, located_after "x =\n5 +".toList [] ['\n'], fun hplace => ?_⟩
  exact absurd (hlocated.mp hplace) (List.cons_ne_nil _ _)

end Stratagem
