import Stratagem.Parse.Step

/-!
# Expressions

An expression is a sum of products of powers of primaries. Sums and products associate to the left
and are built in a loop, powers associate to the right. The functions call each other with tokens
that get fewer, or with the same tokens at a lower tier; `6 * tokens + tier` decreases.
-/

namespace Stratagem.Parse

/-- Whether a kind of token is an operator of sums. -/
def isAdditive : Token.Kind → Bool
  | .plus | .minus => true
  | _ => false

/-- Whether a kind of token is an operator of products. -/
def isMultiplicative : Token.Kind → Bool
  | .star | .slash | .percent => true
  | _ => false

mutual

/-- A sum: products joined by operators of sums, from the left. -/
def sum (ts : List Token) : Step Node ts.length :=
  (product ts).andThen fun left rest h => (sumTail left rest).widen h
termination_by 6 * ts.length + 4
decreasing_by all_goals omega

/-- The rest of a sum whose left part is known. -/
def sumTail (left : Node) (ts : List Token) : Step Node (ts.length + 1) :=
  match ts with
  | [] => .done left [] (Nat.lt_succ_self _)
  | t :: rest =>
    if isAdditive t.kind then
      -- the spelling of the operator is looked at once its right part is known
      (product rest).andThen fun right after h =>
        match Operator.ofSymbol? t.lexeme with
        | some op =>
          (sumTail (.binary op left right) after).widen (Nat.le_succ_of_le (Nat.le_succ_of_le h))
        | none => .failed (.unknownOperator t.lexeme) after
    else .done left (t :: rest) (Nat.lt_succ_self _)
termination_by 6 * ts.length
decreasing_by all_goals simp only [List.length_cons]; omega

/-- A product: powers joined by operators of products, from the left. -/
def product (ts : List Token) : Step Node ts.length :=
  (power ts).andThen fun left rest h => (productTail left rest).widen h
termination_by 6 * ts.length + 3
decreasing_by all_goals omega

/-- The rest of a product whose left part is known. -/
def productTail (left : Node) (ts : List Token) : Step Node (ts.length + 1) :=
  match ts with
  | [] => .done left [] (Nat.lt_succ_self _)
  | t :: rest =>
    if isMultiplicative t.kind then
      (power rest).andThen fun right after h =>
        match Operator.ofSymbol? t.lexeme with
        | some op =>
          (productTail (.binary op left right) after).widen
            (Nat.le_succ_of_le (Nat.le_succ_of_le h))
        | none => .failed (.unknownOperator t.lexeme) after
    else .done left (t :: rest) (Nat.lt_succ_self _)
termination_by 6 * ts.length
decreasing_by all_goals simp only [List.length_cons]; omega

/-- A power: a primary, perhaps raised to a power. -/
def power (ts : List Token) : Step Node ts.length :=
  (primary ts).andThen fun left rest h =>
    match rest, h with
    | [], h => .done left [] h
    | t :: after, h =>
      if t.kind = .caret then
        (power after).andThen fun right last h' =>
          .done (.binary .pow left right) last (by simp only [List.length_cons] at h; omega)
      else .done left (t :: after) h
termination_by 6 * ts.length + 2
decreasing_by
  · omega
  · simp only [List.length_cons] at h; omega

/-- A primary: a number, a variable, an expression in parentheses or a question. -/
def primary (ts : List Token) : Step Node ts.length :=
  match ts with
  | [] => refuse [] .expression
  | t :: rest =>
    match t.kind with
    | .number =>
      .done (.number (t.value.elim .absent .int)) rest (Nat.lt_succ_self _)
    | .ident => .done (.variable (.text t.lexeme)) rest (Nat.lt_succ_self _)
    | .lparen =>
      (sum rest).andThen fun inner after h =>
        (expect .rparen .closingParen after).andThen fun _ last h' =>
          .done (.paren inner) last (by simp only [List.length_cons]; omega)
    | .ally => .done (.info .ally) rest (Nat.lt_succ_self _)
    | .opponent => .done (.info .opponent) rest (Nat.lt_succ_self _)
    | .nearby =>
      (direction rest).andThen fun d after h =>
        .done (.info (.nearby d)) after (by simp only [List.length_cons]; omega)
    | _ => refuse (t :: rest) .expression
termination_by 6 * ts.length + 1
decreasing_by all_goals simp only [List.length_cons]; omega

end

/-- An expression is a sum. -/
def expression (ts : List Token) : Step Node ts.length := sum ts

end Stratagem.Parse
