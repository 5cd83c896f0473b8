import Mathlib.Logic.Relation
import Stratagem.Proofs.Parse.Predictive

/-!
# Parsing only moves forward

Whether it succeeds or fails, and on any list of tokens, a parsing function leaves its list behind
some tokens that it has consumed, and none of these is an end marker (`Advances`). This follows from
the shape of the parsing functions (`Predictive.advances`). A success of a part of a program
consumes at least one token, which its step carries along; for a whole program it is proved here
(`length_lt_of_program`).

The loops of the parser are looked at round by round: `Loop.Round` is one time through the body of a
loop. Every round consumes a token, so no loop goes round forever (`Loop.wellFounded_round`), and
what a loop leaves is where its rounds have led (`Loop.Leaves.rounds`).
-/

namespace Stratagem.Parse

open Reader Grammar

variable {α β : Type} {m n : Nat}

/-- `Consumes ts rest`: `rest` is what `ts` leaves behind some tokens, none of them an end
marker. -/
inductive Consumes : List Token → List Token → Prop
  | refl (ts : List Token) : Consumes ts ts
  | cons {t : Token} {ts rest : List Token} (ht : t.kind ≠ .eof) (h : Consumes ts rest) :
    Consumes (t :: ts) rest

namespace Consumes

variable {ts us vs : List Token}

theorem trans (h : Consumes ts us) (h' : Consumes us vs) : Consumes ts vs := by
  induction h with
  | refl => exact h'
  | cons ht _ ih => exact .cons ht (ih h')

theorem length_le (h : Consumes ts us) : us.length ≤ ts.length := by
  induction h with
  | refl => exact Nat.le_refl _
  | cons _ _ ih => exact Nat.le_succ_of_le ih

theorem afterNext (ts : List Token) : Consumes ts (afterNext ts) := by
  cases ts with
  | nil => exact .refl []
  | cons t ts =>
    by_cases ht : t.kind = .eof
    · simpa only [Parse.afterNext, if_pos ht] using .refl (t :: ts)
    · simpa only [Parse.afterNext, if_neg ht] using .cons ht (.refl ts)

end Consumes

/-- `Advances n f`: on fewer than `n` tokens the reader `f` only moves forward, also when it
fails. -/
def Advances (n : Nat) (f : Reader α) : Prop :=
  ∀ ts, ts.length < n → Consumes ts (f ts).2

namespace Advances

variable {f : Reader α} {k : α → Reader β} {test : Token.Kind → Prop} {ts : List Token}

/-- **Readers one after the other only move forward** if each of them does. -/
theorem bind (hf : Advances n f) (hk : ∀ a, Advances n (k a)) : Advances n (f.bind k) := by
  intro ts hfewer
  have hfirst := hf ts hfewer
  cases hrun : f ts with
  | mk result rest =>
    rw [hrun] at hfirst
    cases result with
    | ok a =>
      rw [bind_of_ok hrun]
      exact hfirst.trans (hk a rest (Nat.lt_of_le_of_lt hfirst.length_le hfewer))
    | error fault =>
      rw [bind_of_failed hrun]
      exact hfirst

/-- A reader that takes the next token only moves forward if it does so behind that token. -/
theorem behind (hend : ¬ test .eof)
    (hgo : ∀ m < n, ∀ t : Token, test t.kind → Advances m fun rest => f (t :: rest))
    (hnext : test (next ts).kind) (hfewer : ts.length < n) : Consumes ts (f ts).2 := by
  cases ts with
  | nil => exact absurd hnext hend
  | cons t ts =>
    have ht : t.kind ≠ .eof := fun he => hend (he ▸ hnext)
    exact .cons ht (hgo (ts.length + 1) hfewer t hnext ts (Nat.lt_succ_self _))

end Advances

/-- **A predictive reader only moves forward**, also where it stops. -/
theorem Predictive.advances {ends : Token.Kind → Prop} {f : Reader α} (h : Predictive ends n f) :
    Advances n f := by
  induction h with
  | pure | fail => exact fun ts _ => .refl ts
  | dispatch test hend what _ _ _ hrefuse ihgo =>
    intro ts hfewer
    by_cases hnext : test (next ts).kind
    · exact Advances.behind hend ihgo hnext hfewer
    · obtain ⟨rest, hrest, hf⟩ := hrefuse ts hnext
      rw [hf]
      simp only [List.mem_cons, List.not_mem_nil, or_false] at hrest
      rcases hrest with rfl | rfl
      · exact .refl rest
      · exact .afterNext ts
  | take test hend _ a _ _ hstop ihgo =>
    intro ts hfewer
    by_cases hnext : test (next ts).kind
    · exact Advances.behind hend ihgo hnext hfewer
    · rw [hstop ts hnext]
      exact .refl ts
  | look test _ a hstop _ hgo ihg =>
    intro ts hfewer
    by_cases htest : test (next ts).kind
    · rw [hstop ts htest]
      exact .refl ts
    · rw [hgo ts htest]
      exact ihg ts hfewer
  | bind _ _ _ ihf ihk => exact ihf.bind ihk

/-- A program that is read has at least one token. -/
theorem length_lt_of_program {ts rest : List Token} {p : Program}
    (h : of program ts = (.ok p, rest)) : rest.length < ts.length := by
  rw [of_program] at h
  obtain ⟨found, after, hfound, h⟩ := bind_eq_ok h
  by_cases hends : endsStatements false (next ts).kind
  · rw [of_statements_stop hends] at hfound
    obtain ⟨hnil, -⟩ := Prod.mk.inj hfound
    obtain rfl := Except.ok.inj hnil
    simp [someStatement] at h
  · rw [of_statements_cons hends] at hfound
    obtain ⟨first, mid, hfirst, hmore⟩ := bind_eq_ok hfound
    obtain ⟨others, last, hothers, hlast⟩ := bind_eq_ok hmore
    obtain ⟨hcons, rfl⟩ := Prod.mk.inj hlast
    obtain rfl := Except.ok.inj hcons
    obtain ⟨-, rfl⟩ := Prod.mk.inj h
    have hshorter : mid.length < ts.length := length_of_ok hfirst
    have hbound : last.length < mid.length + 1 := length_of_ok hothers
    omega

/-! ## The loops -/

/-- The loops of the parser: over the operators of sums and of products, and over the statements of
a block and of a program. -/
inductive Loop where
  | sum | product | block | program

namespace Loop

/-- Whether a loop goes round once more before a token of a kind. -/
def Continues : Loop → Token.Kind → Prop
  | sum, kind => isAdditive kind = true
  | product, kind => isMultiplicative kind = true
  | block, kind => ¬ endsStatements true kind
  | program, kind => ¬ endsStatements false kind

/-- The body of a loop; an operator is consumed before its operand. -/
def body : Loop → Reader Node
  | sum => fun ts => of Parse.product (afterNext ts)
  | product => fun ts => of Parse.power (afterNext ts)
  | block | program => of statement

/-- One round of a loop, from the tokens before it to those it leaves. -/
def Round (loop : Loop) (ts rest : List Token) : Prop :=
  loop.Continues (next ts).kind ∧ ∃ n, loop.body ts = (.ok n, rest)

/-- What a loop leaves when it is over, whatever it has read before. -/
def Leaves : Loop → List Token → List Token → Prop
  | sum, ts, rest => ∃ left n, of (sumTail left) ts = (.ok n, rest)
  | product, ts, rest => ∃ left n, of (productTail left) ts = (.ok n, rest)
  | block, ts, rest => ∃ found, of (statements true) ts = (.ok found, rest)
  | program, ts, rest => ∃ found, of (statements false) ts = (.ok found, rest)

variable {loop : Loop} {ts rest : List Token}

/-- **Every round consumes a token.** -/
theorem Round.length_lt (h : loop.Round ts rest) : rest.length < ts.length := by
  obtain ⟨-, n, hbody⟩ := h
  cases loop with
  | sum | product =>
    exact Nat.lt_of_lt_of_le (length_of_ok hbody) (Consumes.afterNext ts).length_le
  | block | program => exact length_of_ok hbody

/-- **No loop goes round forever.** -/
theorem wellFounded_round (loop : Loop) :
    WellFounded fun later earlier => loop.Round earlier later :=
  Subrelation.wf (fun h => h.length_lt) (measure List.length).wf

/-- A loop over operators that succeeds is over at once, or it succeeds behind one more operand. -/
theorem step_of_isLoop {tail : Node → Reader Node} {isOperator : Token.Kind → Bool}
    {part : Reader Node} (hloop : IsLoop isOperator part tail) {left n : Node}
    (h : tail left ts = (.ok n, rest)) :
    (¬ isOperator (next ts).kind = true ∧ rest = ts) ∨
    ∃ mid, (isOperator (next ts).kind = true ∧ ∃ right, part (afterNext ts) = (.ok right, mid)) ∧
      ∃ left' n', tail left' mid = (.ok n', rest) := by
  cases hnext : isOperator (next ts).kind with
  | false =>
    rw [hloop.stop left hnext] at h
    exact .inl ⟨by decide, (Prod.mk.inj h).2.symm⟩
  | true =>
    have hkind : (next ts).kind ≠ .eof := fun he => by simp [he, hloop.eof] at hnext
    cases ts with
    | nil => exact absurd rfl hkind
    | cons t ts =>
      have ht : isOperator t.kind = true := hnext
      rw [hloop.go left ts ht] at h
      obtain ⟨right, mid, hright, h⟩ := bind_eq_ok h
      have hafter : afterNext (t :: ts) = ts := if_neg hkind
      cases hop : Operator.ofSymbol? t.lexeme with
      | some op =>
        simp only [joined, hop] at h
        exact .inr ⟨mid, ⟨rfl, right, by rwa [hafter]⟩, .binary op left right, n, h⟩
      | none => simp [joined, hop, fail] at h

/-- A list of statements that is read is over at once, or more of it is read behind a statement. -/
theorem step_of_statements {inBlock : Bool} {found : List Node}
    (h : of (statements inBlock) ts = (.ok found, rest)) :
    (endsStatements inBlock (next ts).kind ∧ rest = ts) ∨
    ∃ mid, (¬ endsStatements inBlock (next ts).kind ∧ ∃ n, of statement ts = (.ok n, mid)) ∧
      ∃ others, of (statements inBlock) mid = (.ok others, rest) := by
  by_cases hends : endsStatements inBlock (next ts).kind
  · rw [of_statements_stop hends] at h
    exact .inl ⟨hends, (Prod.mk.inj h).2.symm⟩
  · rw [of_statements_cons hends] at h
    obtain ⟨first, mid, hfirst, hmore⟩ := bind_eq_ok h
    obtain ⟨others, last, hothers, hlast⟩ := bind_eq_ok hmore
    obtain ⟨-, rfl⟩ := Prod.mk.inj hlast
    exact .inr ⟨mid, ⟨hends, first, hfirst⟩, others, hothers⟩

/-- A loop that leaves something is over there at once, or goes round once and leaves it then. -/
theorem Leaves.step (h : loop.Leaves ts rest) :
    (¬ loop.Continues (next ts).kind ∧ rest = ts) ∨
    ∃ mid, loop.Round ts mid ∧ loop.Leaves mid rest := by
  cases loop with
  | sum =>
    obtain ⟨left, n, h⟩ := h
    exact step_of_isLoop isLoop_sumTail h
  | product =>
    obtain ⟨left, n, h⟩ := h
    exact step_of_isLoop isLoop_productTail h
  | block | program =>
    obtain ⟨found, h⟩ := h
    rcases step_of_statements h with ⟨hends, hrest⟩ | hround
    · exact .inl ⟨not_not_intro hends, hrest⟩
    · exact .inr hround

/-- **What a loop leaves is where its rounds have led**, and its last token is one that ends it. -/
theorem Leaves.rounds (h : loop.Leaves ts rest) :
    Relation.ReflTransGen loop.Round ts rest ∧ ¬ loop.Continues (next rest).kind := by
  induction ts using (wellFounded_round loop).induction with
  | h ts ih =>
    rcases h.step with ⟨hstop, rfl⟩ | ⟨mid, hround, hmid⟩
    · exact ⟨.refl, hstop⟩
    · obtain ⟨hrounds, hstop⟩ := ih mid hround hmid
      exact ⟨.head hround hrounds, hstop⟩

end Loop

end Stratagem.Parse
