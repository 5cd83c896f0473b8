import Mathlib
import Stratagem.Proofs.Token.Fault
import Stratagem.Proofs.Token.Reached

/-!
# A lexical problem is final

A lexeme that offends still offends when the text goes on in another way: a character stands for
itself, and a number that is out of range only grows with the digits behind it (`Offends.goesOn`).
What the scanner has read before that does not change either, so a text is beyond repair from the
first lexeme on that offends.
-/

namespace Stratagem

open Text Text.Cursor

/-- Where a scan fails the scanner has reached the lexeme that offends. -/
theorem Halts.reached {text : List Char} {d : Diagnostic} (h : Halts [] text d) :
    ∃ before lexeme rest cause us, text = before ++ (lexeme ++ rest) ∧
      Reached before (lexeme ++ rest) us ∧ Offends lexeme rest cause ∧
      d = problemAfter before cause lexeme := by
  obtain ⟨htext, hopening, hgap, hoffends, hd⟩ := h
  rename_i front gap lexeme rest cause us
  exact ⟨front ++ gap, lexeme, rest, cause, us, by rw [htext, List.append_assoc],
    .intro rfl hopening hgap, hoffends, hd⟩

/-- A lexeme that offends ends the scan. -/
theorem Reached.scan_offends {before lexeme rest : List Char} {us : List Token}
    {cause : Diagnostic.Cause} (h : Reached before (lexeme ++ rest) us)
    (hoffends : Offends lexeme rest cause) :
    Stratagem.scan (String.ofList (before ++ (lexeme ++ rest))) =
      .error (problemAfter before cause lexeme) := by
  obtain ⟨rfl, hopening, hgap⟩ := h
  refine scan_eq_error_iff_halts.mpr ?_
  rw [String.toList_ofList]
  exact .intro (List.append_assoc _ _ _) hopening hgap hoffends rfl

/-! ## Going on behind what offends -/

/-- A number does not get smaller by the digits behind it. -/
theorem Decimal.value_le_append (ds es : List Nat) : value ds ≤ value (ds ++ es) := by
  have hpow : 0 < Nat.pow 10 es.length := Nat.pow_pos (by decide)
  have hshift : value (ds ++ es) = value ds * Nat.pow 10 es.length + value es := by
    rw [value, List.foldl_append, foldl_eq_value]
    rfl
  rw [hshift]
  exact Nat.le_trans (Nat.le_mul_of_pos_right _ hpow) (Nat.le_add_right _ _)

namespace Offends

variable {lexeme rest : List Char} {cause : Diagnostic.Cause}

/-- What offends is at least one character. -/
theorem ne_nil (h : Offends lexeme rest cause) : lexeme ≠ [] := by
  cases h with
  | character => exact List.cons_ne_nil _ _
  | number hne => exact hne

/-- **What offends still offends where the text goes on in another way**; a run of digits takes in
the digits that follow it there. -/
theorem goesOn (h : Offends lexeme rest cause) (u : List Char) :
    ∃ more rest', u = more ++ rest' ∧ Offends (lexeme ++ more) rest' cause := by
  cases h with
  | character hgap hdigit hletter hsymbol =>
    exact ⟨[], u, rfl, .character hgap hdigit hletter hsymbol⟩
  | number hne hrun _ hlarge =>
    obtain ⟨more, rest', rfl, hmore, hrest'⟩ := exists_run isDigit u
    refine ⟨more, rest', rfl, .number (List.append_ne_nil_of_left_ne_nil hne more) ?_ hrest' ?_⟩
    · rw [List.forall_mem_append]
      exact ⟨hrun, hmore⟩
    · rw [List.map_append]
      exact Nat.lt_of_lt_of_le hlarge (Decimal.value_le_append _ _)

end Offends

/-- **A lexical problem is the first one, and nothing behind it repairs it.** The text before the
place that is reported is scanned without a problem. A text that agrees up to the end of the lexeme
that is reported has the same problem at the same place, whatever follows. -/
theorem scan_error_final {src : String} {d : Diagnostic} (h : scan src = .error d) :
    ∃ e : Nat, d.position = e ∧
      (∃ ts, scan (String.ofList (src.toList.take e)) = .ok ts) ∧
      ∀ u : String, ∃ d',
        scan (String.ofList (src.toList.take (e + d.lexeme.length)) ++ u) = .error d' ∧
        d'.stage = d.stage ∧ d'.cause = d.cause ∧ d'.position = d.position ∧ d'.line = d.line ∧
        d'.column = d.column := by
  obtain ⟨before, lexeme, rest, cause, us, hsrc, hreached, hoffends, rfl⟩ :=
    (scan_eq_error_iff_halts.mp h).reached
  have hlength : (problemAfter before cause lexeme).lexeme.length = lexeme.length :=
    String.length_ofList
  refine ⟨before.length, rfl, ⟨us ++ [endAfter before], ?_⟩, fun u => ?_⟩
  · rw [hsrc, List.take_left]
    exact hreached.scan_before
  · obtain ⟨more, rest', hu, hoffends'⟩ := hoffends.goesOn u.toList
    have hhead : (lexeme ++ more ++ rest').head? = (lexeme ++ rest).head? := by
      obtain ⟨c, run, rfl⟩ := List.exists_cons_of_ne_nil hoffends.ne_nil
      rfl
    have htext : String.ofList (src.toList.take (before.length + lexeme.length)) ++ u
        = String.ofList (before ++ (lexeme ++ more ++ rest')) := by
      rw [hsrc, List.take_length_add_append, List.take_left, ← String.ofList_toList (s := u), hu,
        ← String.ofList_append, List.append_assoc, List.append_assoc]
    refine ⟨problemAfter before cause (lexeme ++ more), ?_, rfl, rfl, rfl, rfl, rfl⟩
    rw [hlength, htext]
    exact (hreached.congr hhead).scan_offends hoffends'

/-- A number that is out of range stays so with one more digit, and the text before it is fine. -/
theorem scan_longerNumber :
    (∃ ts, scan "x = " = .ok ts) ∧
    ∃ d, scan "x = 999999999999999999999" = .error d ∧ d.cause = .numberOutOfRange ∧
      d.position = 4 := by
  have hscan : scan "x = 99999999999999999999 $" = .error
      ⟨.scanning, .numberOutOfRange, "99999999999999999999", 4, 1, 5⟩ := by cbv
  obtain ⟨e, he, hbefore, hafter⟩ := scan_error_final hscan
  obtain rfl : e = 4 := by
    have he' : (4 : Int) = e := he
    omega
  obtain ⟨d, hd, -, hcause, hposition, -, -⟩ := hafter "9"
  exact ⟨hbefore, d, hd, hcause, hposition⟩

end Stratagem
