/-!
# Decimal notation

Numbers are written in base ten without leading zeros, and read most significant digit first.
Main statement: `value_digits`, reading the written digits gives the number back.
-/

namespace Stratagem.Decimal

/-- The digits of `n`, most significant first; zero has the one digit zero. -/
def digits (n : Nat) : List Nat :=
  if n < 10 then [n] else digits (n / 10) ++ [n % 10]
termination_by n
decreasing_by omega

/-- The number whose digits, most significant first, are `ds`. -/
def value (ds : List Nat) : Nat := ds.foldl (fun acc d => acc * 10 + d) 0

theorem value_append_singleton (ds : List Nat) (d : Nat) :
    value (ds ++ [d]) = value ds * 10 + d := by
  simp [value]

theorem value_digits (n : Nat) : value (digits n) = n := by
  fun_induction digits n with
  | case1 n h => simp [value]
  | case2 n h ih => rw [value_append_singleton, ih]; omega

/-- The ASCII character of a digit. -/
def digitChar (d : Nat) : Char := Char.ofNat (0x30 + d)

/-- The decimal text of a natural number. -/
def natText (n : Nat) : String := String.ofList ((digits n).map digitChar)

/-- The decimal text of an integer: a minus sign stands before a negative one. -/
def text : Int → String
  | .ofNat n => natText n
  | .negSucc n => "-" ++ natText (n + 1)

end Stratagem.Decimal
