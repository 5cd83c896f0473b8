import Stratagem.Diagnostic
import Stratagem.Node.Basic

/-!
# Steps over a list of tokens

A parsing function is given the tokens that are left and makes a step: it returns a value and the
tokens left after it, or a fault and the tokens at which it stopped. A successful step carries the
proof that fewer tokens than its bound are left. That proof is what makes the recursive descent end,
so no loop needs a limit.

The end marker is never consumed, and a list that has run out counts as ended.
-/

namespace Stratagem.Parse

/-- Why parsing fails: a problem in the program, or an operator token whose spelling is no operator.
Scanned tokens never show the second one. -/
inductive Fault where
  | problem (d : Diagnostic)
  | unknownOperator (lexeme : String)
  deriving DecidableEq, Repr

/-- The report on a failed parse. -/
def Fault.message : Fault → String
  | .problem d => d.message
  | .unknownOperator lexeme => "Unknown binary operator " ++ Text.quoted lexeme

/-- The result of a parsing function; after success fewer than `bound` tokens are left. -/
inductive Step (α : Type) (bound : Nat) where
  | done (value : α) (rest : List Token) (fewer : rest.length < bound)
  | failed (fault : Fault) (rest : List Token)

namespace Step

variable {α β : Type} {m n : Nat}

/-- Goes on with the value and the tokens left, or stays at the fault. -/
def andThen (step : Step α m)
    (next : (value : α) → (rest : List Token) → rest.length < m → Step β n) : Step β n :=
  match step with
  | .done value rest fewer => next value rest fewer
  | .failed fault rest => .failed fault rest

/-- The same step under a larger bound. -/
def widen (step : Step α m) (h : m ≤ n) : Step α n :=
  match step with
  | .done value rest fewer => .done value rest (Nat.lt_of_lt_of_le fewer h)
  | .failed fault rest => .failed fault rest

/-- The value or the fault of a step. -/
def result : Step α n → Except Fault α
  | .done value _ _ => .ok value
  | .failed fault _ => .error fault

/-- The tokens left after a step. -/
def rest : Step α n → List Token
  | .done _ rest _ => rest
  | .failed _ rest => rest

@[simp] theorem andThen_done (value : α) (rest : List Token) (h : rest.length < m)
    (next : (value : α) → (rest : List Token) → rest.length < m → Step β n) :
    (Step.done value rest h).andThen next = next value rest h := rfl

@[simp] theorem andThen_failed (fault : Fault) (rest : List Token)
    (next : (value : α) → (rest : List Token) → rest.length < m → Step β n) :
    (.failed fault rest : Step α m).andThen next = .failed fault rest := rfl

end Step

/-- What a list of tokens that has run out counts as. -/
def endOfInput : Token := { kind := .eof, lexeme := "" }

/-- The next token. -/
def next (ts : List Token) : Token := ts.headD endOfInput

/-- The tokens after the next one; the end marker stays. -/
def afterNext (ts : List Token) : List Token :=
  match ts with
  | [] => []
  | t :: rest => if t.kind = .eof then t :: rest else rest

/-- A problem at the next token. -/
def problemAt (ts : List Token) (cause : Diagnostic.Cause) : Fault :=
  .problem (Diagnostic.atToken (next ts) cause)

/-- Fails at the next token. -/
def refuse {α : Type} {n : Nat} (ts : List Token) (what : Expectation) : Step α n :=
  .failed (problemAt ts (.expected what)) ts

/-- Consumes a token of a kind other than the end marker's. -/
def expect (kind : Token.Kind) (what : Expectation) : (ts : List Token) → Step Token ts.length
  | [] => refuse [] what
  | t :: rest =>
    if t.kind = kind then .done t rest (Nat.lt_succ_self _) else refuse (t :: rest) what

/-- Consumes a token, which has to name a direction. The end marker is refused but not consumed. -/
def direction : (ts : List Token) → Step Direction ts.length
  | [] => refuse [] .direction
  | t :: rest =>
    match Direction.ofKind? t.kind with
    | some d => .done d rest (Nat.lt_succ_self _)
    | none => .failed (problemAt (t :: rest) (.expected .direction)) (afterNext (t :: rest))

end Stratagem.Parse
