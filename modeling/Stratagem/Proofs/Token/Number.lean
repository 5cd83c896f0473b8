import Stratagem.Token.Scan

/-!
# Numbers in a program

The scanner drops leading zeros and refuses a long run of digits before it computes a value.
`boundedValue?_eq` says that this shortcut decides the same as the plain comparison: a run of digits
is a number exactly when its value is at most `maxNumber`.
-/

namespace Stratagem

namespace Decimal

/-- Reading on from a number shifts it by the width of what is read. -/
theorem foldl_eq_value (ds : List Nat) : ∀ (acc : Nat),
    ds.foldl (fun acc d => acc * 10 + d) acc = acc * Nat.pow 10 ds.length + value ds := by
  induction ds with
  | nil => intro acc; simp [value]
  | cons d ds ih =>
    intro acc
    have hpow : Nat.pow 10 (ds.length + 1) = Nat.pow 10 ds.length * 10 := rfl
    rw [value, List.foldl_cons, List.foldl_cons, ih, ih, List.length_cons, hpow,
      Nat.add_mul, Nat.add_mul, Nat.mul_comm (Nat.pow 10 ds.length) 10, Nat.mul_assoc]
    omega

theorem value_cons (d : Nat) (ds : List Nat) :
    value (d :: ds) = d * Nat.pow 10 ds.length + value ds := by
  rw [value, List.foldl_cons, foldl_eq_value]
  simp

/-- Leading zeros do not count. -/
theorem value_dropWhile_zero (ds : List Nat) : value (ds.dropWhile (· = 0)) = value ds := by
  induction ds with
  | nil => rfl
  | cons d ds ih =>
    rw [List.dropWhile_cons]
    split
    next hd =>
      obtain rfl : d = 0 := by simpa using hd
      rw [ih, value_cons]
      simp
    next => rfl

/-- A number with a first digit other than zero is at least the power of ten of its width. -/
theorem pow_le_value {d : Nat} {ds : List Nat} (hd : d ≠ 0) :
    Nat.pow 10 ds.length ≤ value (d :: ds) := by
  rw [value_cons]
  have hmul : 1 * Nat.pow 10 ds.length ≤ d * Nat.pow 10 ds.length :=
    Nat.mul_le_mul_right _ (Nat.one_le_iff_ne_zero.mpr hd)
  omega

/-! ### Written numbers -/

theorem digits_ne_nil (n : Nat) : digits n ≠ [] := by
  fun_induction digits n <;> simp

theorem digits_lt (n : Nat) : ∀ d ∈ digits n, d < 10 := by
  fun_induction digits n with
  | case1 n h => simpa using h
  | case2 n h ih =>
    rw [List.forall_mem_append]
    exact ⟨ih, by simpa using Nat.mod_lt n (by decide)⟩

/-- The character of a digit is one and has its value. -/
theorem digitChar_spec {d : Nat} (h : d < 10) :
    Text.isDigit (digitChar d) = true ∧ Text.digitValue (digitChar d) = d := by
  have hall : ∀ d < 10, Text.isDigit (digitChar d) = true ∧ Text.digitValue (digitChar d) = d := by
    decide
  exact hall d h

theorem isDigit_of_mem_digits {n : Nat} {c : Char} (h : c ∈ (digits n).map digitChar) :
    Text.isDigit c = true := by
  obtain ⟨d, hd, rfl⟩ := List.mem_map.mp h
  exact (digitChar_spec (digits_lt n d hd)).1

/-- **A written number has its value.** -/
theorem value_digitChar (n : Nat) :
    value (((digits n).map digitChar).map Text.digitValue) = n := by
  have hvalues : ((digits n).map digitChar).map Text.digitValue = digits n := by
    rw [List.map_map]
    exact (List.map_congr_left fun d hd => (digitChar_spec (digits_lt n d hd)).2).trans
      (List.map_id _)
  rw [hvalues, value_digits]

/-- Different numbers are written differently. -/
theorem natText_injective : Function.Injective natText := by
  intro m n h
  have hdigits := String.ofList_injective h
  rw [← value_digitChar m, hdigits, value_digitChar]

/-- A written natural number has no minus sign in front. -/
theorem natText_ne_minus (n : Nat) (rest : String) : natText n ≠ "-" ++ rest := by
  intro h
  have hminus : '-' ∈ (natText n).toList := by
    rw [h, String.toList_append]
    exact List.mem_append_left _ (by decide)
  rw [natText, String.toList_ofList] at hminus
  have hdigit := isDigit_of_mem_digits hminus
  revert hdigit
  decide

/-- Different integers are written differently. -/
theorem text_injective : Function.Injective text := by
  intro a b h
  cases a with
  | ofNat m =>
    cases b with
    | ofNat n => exact congrArg Int.ofNat (natText_injective h)
    | negSucc n => exact absurd h (natText_ne_minus m _)
  | negSucc m =>
    cases b with
    | ofNat n => exact absurd h.symm (natText_ne_minus n _)
    | negSucc n =>
      have hsucc := natText_injective ((String.append_right_inj "-").mp h)
      exact congrArg Int.negSucc (Nat.succ.inj hsucc)

end Decimal

/-- A run without leading zeros that is wider than `maxNumber` is greater. -/
theorem maxNumber_lt_of_width {ds : List Nat} (hhead : ∀ d ∈ ds.head?, d ≠ 0)
    (hwidth : maxNumberWidth < ds.length) : maxNumber < Decimal.value ds := by
  cases ds with
  | nil => simp at hwidth
  | cons d ds =>
    have hpow : Nat.pow 10 maxNumberWidth ≤ Nat.pow 10 ds.length :=
      Nat.pow_le_pow_right (by decide) (by simpa using Nat.le_of_lt_succ hwidth)
    have hmax : maxNumber < Nat.pow 10 maxNumberWidth := by decide
    exact Nat.lt_of_lt_of_le (Nat.lt_of_lt_of_le hmax hpow)
      (Decimal.pow_le_value (hhead d (by simp)))

/-- **The shortcut decides as the plain comparison does**, on digits of any number. -/
theorem boundedValue?_eq (ds : List Nat) :
    boundedValue? ds = if maxNumber < Decimal.value ds then none else some (Decimal.value ds) := by
  have hhead : ∀ d ∈ (ds.dropWhile (· = 0)).head?, d ≠ 0 := by
    intro d hd
    have hstop := List.head?_dropWhile_not (· = 0) ds
    rw [Option.mem_def.mp hd] at hstop
    simpa using hstop
  rw [boundedValue?]
  split
  next hwidth =>
    have hlt := maxNumber_lt_of_width hhead hwidth
    rw [Decimal.value_dropWhile_zero] at hlt
    rw [if_pos hlt]
  next => rw [Decimal.value_dropWhile_zero]

end Stratagem
