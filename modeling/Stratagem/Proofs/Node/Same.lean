import Stratagem.Node.Equality

/-!
# Comparing well-typed trees

Trees are compared field by field, and the comparison can fail: two nodes without a kind have no
answer, and a truth value is the same as a number. Nothing of this is in a well-typed tree. There
the comparison always has an answer, and it is yes exactly for equal trees (`same_decides`).
-/

namespace Stratagem

namespace Node

/-- `Decides x P`: the comparison has an answer, and it is yes exactly if `P` holds. -/
def Decides (x : Except CompareFault Bool) (P : Prop) : Prop := ∃ b, x = .ok b ∧ (b = true ↔ P)

namespace Decides

variable {x y : Except CompareFault Bool} {P Q : Prop}

theorem answer {b : Bool} (h : b = true ↔ P) : Decides (.ok b) P := ⟨b, rfl, h⟩

theorem no (h : ¬P) : Decides (.ok false) P := answer (iff_of_false Bool.false_ne_true h)

theorem congr (h : Decides x P) (hPQ : P ↔ Q) : Decides x Q := by
  obtain ⟨b, rfl, hb⟩ := h
  exact ⟨b, rfl, hb.trans hPQ⟩

theorem eq_yes_iff (h : Decides x P) : x = .ok true ↔ P := by
  obtain ⟨b, rfl, hb⟩ := h
  rw [Except.ok.injEq, hb]

/-- A comparison that goes on decides both of its parts. -/
theorem andSame (hx : Decides x P) (hy : Decides y Q) : Decides (andSame x y) (P ∧ Q) := by
  obtain ⟨b, rfl, hb⟩ := hx
  cases b with
  | false => exact ⟨false, rfl, by simpa using fun hP => absurd (hb.mpr hP) Bool.false_ne_true⟩
  | true =>
    obtain ⟨c, rfl, hc⟩ := hy
    exact ⟨c, rfl, by rw [hc, and_iff_right (hb.mp rfl)]⟩

end Decides

theorem decides_text (s t : String) :
    Decides (.ok ((Datum.text s).same (.text t))) (Datum.text s = .text t) :=
  .answer (by simp [Datum.same])

theorem decides_int (m n : Int) :
    Decides (.ok ((Datum.int m).same (.int n))) (Datum.int m = .int n) :=
  .answer (by simp [Datum.same, Datum.asInt?, eq_comm])

mutual

/-- **The comparison of well-typed nodes has an answer, and it is equality.** -/
theorem same_decides : (n n' : Node) → n.WellTyped → n'.WellTyped → Decides (n.same n') (n = n')
  | .assign name value, n', h, h' => by
    cases n' with
    | assign name' value' =>
      obtain ⟨⟨s, rfl⟩, hvalue⟩ := h
      obtain ⟨⟨t, rfl⟩, hvalue'⟩ := h'
      rw [same]
      exact ((decides_text s t).andSame (same_decides value value' hvalue hvalue')).congr (by simp)
    | _ => exact .no (by simp)
  | .done, n', _, _ => by
    cases n' with
    | done => exact .answer (by simp)
    | _ => exact .no (by simp)
  | .move direction, n', _, _ => by
    cases n' with
    | move direction' => exact .answer (by simp)
    | _ => exact .no (by simp)
  | .shoot direction expenditure, n', h, h' => by
    cases n' with
    | shoot direction' expenditure' =>
      rw [same]
      exact ((Decides.answer decide_eq_true_iff).andSame
        (same_decides expenditure expenditure' h.2 h'.2)).congr (by simp)
    | _ => exact .no (by simp)
  | .block statements, n', h, h' => by
    cases n' with
    | block statements' =>
      rw [same]
      exact (allSame_decides statements statements' h h').congr (by simp)
    | _ => exact .no (by simp)
  | .ifElse condition thenBranch elseBranch, n', ⟨hcondition, hthen, helse⟩, h' => by
    cases n' with
    | ifElse condition' thenBranch' elseBranch' =>
      obtain ⟨hcondition', hthen', helse'⟩ := h'
      rw [same]
      exact ((same_decides condition condition' hcondition hcondition').andSame
        ((same_decides thenBranch thenBranch' hthen hthen').andSame
          (same_decides elseBranch elseBranch' helse helse'))).congr (by simp)
    | _ => exact .no (by simp)
  | .whileLoop condition body, n', ⟨hcondition, hbody⟩, h' => by
    cases n' with
    | whileLoop condition' body' =>
      obtain ⟨hcondition', hbody'⟩ := h'
      rw [same]
      exact ((same_decides condition condition' hcondition hcondition').andSame
        (same_decides body body' hbody hbody')).congr (by simp)
    | _ => exact .no (by simp)
  | .number value, n', h, h' => by
    cases n' with
    | number value' =>
      obtain ⟨m, rfl⟩ := h
      obtain ⟨n, rfl⟩ := h'
      rw [same]
      exact (decides_int m n).congr (by simp)
    | _ => exact .no (by simp)
  | .variable name, n', h, h' => by
    cases n' with
    | «variable» name' =>
      obtain ⟨s, rfl⟩ := h
      obtain ⟨t, rfl⟩ := h'
      rw [same]
      exact (decides_text s t).congr (by simp)
    | _ => exact .no (by simp)
  | .binary op left right, n', ⟨hleft, hright⟩, h' => by
    cases n' with
    | binary op' left' right' =>
      obtain ⟨hleft', hright'⟩ := h'
      rw [same]
      exact ((Decides.answer decide_eq_true_iff).andSame
        ((same_decides left left' hleft hleft').andSame
          (same_decides right right' hright hright'))).congr (by simp)
    | _ => exact .no (by simp)
  | .paren inner, n', h, h' => by
    cases n' with
    | paren inner' =>
      rw [same]
      exact (same_decides inner inner' h h').congr (by simp)
    | _ => exact .no (by simp)
  | .info query, n', _, _ => by
    cases n' with
    | info query' => exact .answer (by simp)
    | _ => exact .no (by simp)

theorem allSame_decides : (ns ns' : List Node) → AllWellTyped ns → AllWellTyped ns' →
    Decides (allSame ns ns') (ns = ns')
  | [], [], _, _ => .answer (by simp)
  | [], _ :: _, _, _ => .no (by simp)
  | _ :: _, [], _, _ => .no (by simp)
  | n :: ns, n' :: ns', ⟨hn, hns⟩, ⟨hn', hns'⟩ => by
    rw [allSame]
    exact ((same_decides n n' hn hn').andSame (allSame_decides ns ns' hns hns')).congr (by simp)

end

end Node

/-- **Well-typed programs are the same exactly when they are equal.** -/
theorem Program.same_eq_yes_iff {p q : Program} (hp : Node.AllWellTyped p)
    (hq : Node.AllWellTyped q) : p.same q = .ok true ↔ p = q := by
  rw [Program.same]
  split
  next => exact (Node.allSame_decides p q hp hq).eq_yes_iff
  next hlength => simpa using fun h => hlength (congrArg List.length h)

end Stratagem
