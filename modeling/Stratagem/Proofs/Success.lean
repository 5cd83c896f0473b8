/-!
# Computations that succeed

A computation that may fail is put together from steps and checks. It succeeds exactly if every step
does (`bind_eq_ok_iff`) and every check is passed (`guard_eq_ok_iff`), and so a success is taken apart
and put together by the same lemmas.
-/

namespace Stratagem

variable {ε α β : Type}

/-- Two steps succeed if one does after the other. -/
theorem bind_eq_ok_iff {x : Except ε α} {f : α → Except ε β} {b : β} :
    (x >>= f) = .ok b ↔ ∃ a, x = .ok a ∧ f a = .ok b := by
  cases x with
  | error fault =>
    constructor
    · intro h
      cases h
    · rintro ⟨a, ha, -⟩
      cases ha
  | ok a =>
    constructor
    · intro h
      exact ⟨a, rfl, h⟩
    · rintro ⟨_, ha, h⟩
      cases ha
      exact h

theorem throw_ne_ok (fault : ε) (a : α) : (throw fault : Except ε α) ≠ .ok a := by
  intro h
  cases h

/-- A check is passed if what it refuses is not the case. -/
theorem guard_eq_ok_iff {refused : Prop} [Decidable refused] {fault : ε} {k : Unit → Except ε β}
    {b : β} : (if refused then (throw fault : Except ε Unit) >>= k else k ()) = .ok b ↔
      ¬ refused ∧ k () = .ok b := by
  by_cases h : refused
  · rw [if_pos h]
    constructor
    · intro hthrow
      cases hthrow
    · intro hok
      exact absurd h hok.1
  · rw [if_neg h]
    exact ⟨fun hok => ⟨h, hok⟩, And.right⟩

end Stratagem
