import Mathlib.Algebra.BigOperators.Fin
import Stratagem.Proofs.Token.Fault
import Stratagem.Proofs.Token.Reached

/-!
# Numbers are read exactly

A run of digits stands for the sum of its digits, each times the power of ten of the digits behind
it, whatever scripts the digits are of and however many zeros stand in front. The scanner reads a
run as that number if it fits into 64 bits, and reports the run as a whole if it does not.

The scanner itself computes from the left and only if few digits are left without the zeros in
front. `Decimal.placeValue_eq_value` and `boundedValue?_eq_placeValue` say that neither makes a
difference.
-/

namespace Stratagem

open Text Text.Cursor

namespace Decimal

/-- The number that digits stand for, most significant first: each of them counts the power of ten
of the digits behind it. -/
def placeValue (ds : List Nat) : Nat := ∑ i : Fin ds.length, ds[i] * 10 ^ (ds.length - 1 - i)

theorem placeValue_cons (d : Nat) (ds : List Nat) :
    placeValue (d :: ds) = d * 10 ^ ds.length + placeValue ds := by
  have hsplit : placeValue (d :: ds) = (d :: ds)[(0 : Fin (ds.length + 1))] * 10 ^ ds.length +
      ∑ i : Fin ds.length, (d :: ds)[i.succ] * 10 ^ (ds.length - (i + 1)) :=
    Fin.sum_univ_succ fun i : Fin (ds.length + 1) => (d :: ds)[i] * 10 ^ (ds.length - i)
  rw [hsplit, placeValue]
  congr 1
  refine Finset.sum_congr rfl fun i _ => ?_
  have hbehind : ds.length - (i + 1) = ds.length - 1 - i := by omega
  rw [hbehind]
  rfl

/-- **Reading from the left computes the sum of the digits** by their places. -/
theorem placeValue_eq_value (ds : List Nat) : placeValue ds = value ds := by
  induction ds with
  | nil => rfl
  | cons d ds ih =>
    rw [placeValue_cons, ih, value_cons]
    rfl

end Decimal

/-- The shortcut of the scanner decides as the comparison of the sum does. -/
theorem boundedValue?_eq_placeValue (ds : List Nat) :
    boundedValue? ds =
      if Decimal.placeValue ds ≤ 2 ^ 63 - 1 then some (Decimal.placeValue ds) else none := by
  have hmax : maxNumber = 2 ^ 63 - 1 := rfl
  rw [boundedValue?_eq, Decimal.placeValue_eq_value, hmax]
  by_cases hle : Decimal.value ds ≤ 2 ^ 63 - 1
  · rw [if_neg (Nat.not_lt.mpr hle), if_pos hle]
  · rw [if_pos (Nat.lt_of_not_le hle), if_neg hle]

/-- **A run of digits is read exactly.** Let a longest run of digits stand where the scanner looks
for a token, and let `v` be the sum of the digits by their places. The shortcut of the scanner
decides as the comparison with the greatest number does. If `v` is at most that, the run is read as
a token with the value `v`, and otherwise it is reported as a whole and where it starts. So it is by
itself, and so it is in the scan of a text that comes to the run. -/
theorem number_exact {before run rest : List Char} {v : Nat} (hne : run ≠ [])
    (hrun : ∀ c ∈ run, isDigit c = true) (hrest : ∀ c ∈ rest.head?, isDigit c = false)
    (hv : Decimal.placeValue (run.map digitValue) = v) :
    boundedValue? (run.map digitValue) = (if v ≤ 2 ^ 63 - 1 then some v else none) ∧
    (v ≤ 2 ^ 63 - 1 →
      (between before (run ++ rest)).nextToken =
        (.ok (tokenAfter before .number run (some v)), between (before ++ run) rest) ∧
      ∀ us, Reached before (run ++ rest) us →
        scan (String.ofList (before ++ (run ++ rest))) =
          (between (before ++ run) rest).tokens.1.map
            fun ts => us ++ tokenAfter before .number run (some v) :: ts) ∧
    (2 ^ 63 - 1 < v → ∃ d : Diagnostic,
      d.stage = .scanning ∧ d.cause.text = "Number out of range for 64-bit integer" ∧
      d.lexeme = String.ofList run ∧ d.position = before.length ∧
      (between before (run ++ rest)).nextToken = (.error d, between (before ++ run) rest) ∧
      ∀ us, Reached before (run ++ rest) us →
        scan (String.ofList (before ++ (run ++ rest))) = .error d) := by
  have hmax : maxNumber = 2 ^ 63 - 1 := rfl
  have hstart := startsNoGap_of_digits hne hrun rest
  have hnext := nextToken_here before hstart
  have hvalue : Decimal.value (run.map digitValue) = v := by
    rw [← hv, Decimal.placeValue_eq_value]
  obtain ⟨c, run, rfl⟩ := List.exists_cons_of_ne_nil hne
  rw [tokenHere_digits before hrun hrest, hvalue, hmax] at hnext
  refine ⟨?_, fun hle => ?_, fun hlarge => ?_⟩
  · rw [boundedValue?_eq_placeValue, hv]
  · rw [if_neg (Nat.not_lt.mpr hle)] at hnext
    refine ⟨hnext, fun us hreached => ?_⟩
    rw [hreached.scan hstart, tokens_of_token hnext (fun h => by cases h)]
    cases (between (before ++ c :: run) rest).tokens.1 <;> rfl
  · rw [if_pos hlarge] at hnext
    refine ⟨_, rfl, rfl, rfl, rfl, hnext, fun us hreached => ?_⟩
    rw [hreached.scan hstart, tokens_of_error hnext]
    rfl

/-- Two scripts in one run, behind zeros: the greatest number is read, and the next one is not. -/
theorem number_exact_atLimit :
    (between [] "0٠9223372036854775٨٠٧ up".toList).nextToken.1 =
      .ok (tokenAfter [] .number "0٠9223372036854775٨٠٧".toList (some 9223372036854775807)) ∧
    ∃ d : Diagnostic, (between [] "0٠9223372036854775٨٠٨ up".toList).nextToken.1 = .error d ∧
      d.cause.text = "Number out of range for 64-bit integer" ∧ d.position = 0 := by
  have hrest : ∀ c ∈ " up".toList.head?, isDigit c = false := by
    intro c hc
    obtain rfl : ' ' = c := by simpa using hc
    decide
  have hlimit : "0٠9223372036854775٨٠٧".toList.all isDigit = true := by decide
  have hnext : "0٠9223372036854775٨٠٨".toList.all isDigit = true := by decide
  obtain ⟨-, hread, -⟩ := @number_exact [] "0٠9223372036854775٨٠٧".toList " up".toList
    9223372036854775807 (by decide) (List.all_eq_true.mp hlimit) hrest (by decide +kernel)
  obtain ⟨-, -, hrefused⟩ := @number_exact [] "0٠9223372036854775٨٠٨".toList " up".toList
    9223372036854775808 (by decide) (List.all_eq_true.mp hnext) hrest (by decide +kernel)
  obtain ⟨d, -, htext, -, hposition, hfails, -⟩ := hrefused (by decide)
  exact ⟨congrArg Prod.fst (hread (by decide)).1, d, congrArg Prod.fst hfails, htext, hposition⟩

end Stratagem
