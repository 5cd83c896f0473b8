import Stratagem.Parse.Statement

/-!
# Parsing step by step

A session holds a list of tokens and a place in it, and takes calls in any order, also after calls
that failed. The tokens held never change, and a call only moves the place forward.
-/

namespace Stratagem.Parse

/-- The tokens held and those of them that are left. -/
structure Session where
  held : List Token
  rest : List Token
  deriving Repr

/-- A session over the given tokens. -/
def Session.start (tokens : List Token) : Session := ⟨Parse.held tokens, Parse.held tokens⟩

/-- The number of tokens consumed. -/
def Session.pos (s : Session) : Nat := s.held.length - s.rest.length

/-- The parts of a program that can be asked for. -/
inductive Rule where
  | expression | sum | product | power | primary
  | block | ifStatement | whileStatement | moveStatement | shootStatement | assignment | statement
  deriving DecidableEq, Repr

/-- The parsing function of a rule. -/
def Rule.step : Rule → (ts : List Token) → Step Node ts.length
  | .expression => Parse.expression
  | .sum => Parse.sum
  | .product => Parse.product
  | .power => Parse.power
  | .primary => Parse.primary
  | .block => Parse.block
  | .ifStatement => Parse.ifStatement
  | .whileStatement => Parse.whileStatement
  | .moveStatement => Parse.moveStatement
  | .shootStatement => Parse.shootStatement
  | .assignment => Parse.assignment
  | .statement => Parse.statement

/-- What one can ask of a session. A problem is made for a given token, or else for the next one. -/
inductive Call where
  | peek
  | advance
  | isAtEnd
  | check (kind : Token.Kind)
  | accept (kinds : List Token.Kind)
  | expect (kind : Token.Kind) (text : String)
  | problem (text : String) (token : Option Token := none)
  | direction
  | rule (rule : Rule)
  | program
  deriving Repr

/-- What a call gives back. -/
inductive Answer where
  | token (t : Token)
  | flag (b : Bool)
  | direction (d : Direction)
  | node (n : Node)
  | program (p : Program)
  | problem (d : Diagnostic)
  | failed (f : Fault)
  deriving Repr

namespace Session

/-- The answer of a step and the session after it. -/
def answerStep {α : Type} {n : Nat} (s : Session) (wrap : α → Answer) : Step α n → Answer × Session
  | .done value rest _ => (wrap value, { s with rest := rest })
  | .failed fault rest => (.failed fault, { s with rest := rest })

/-- Does a call: the answer and the session it leaves. -/
def perform (s : Session) : Call → Answer × Session
  | .peek => (.token (next s.rest), s)
  | .advance => (.token (next s.rest), { s with rest := afterNext s.rest })
  | .isAtEnd => (.flag ((next s.rest).kind = .eof), s)
  | .check kind => (.flag ((next s.rest).kind = kind), s)
  | .accept kinds =>
    if (next s.rest).kind ∈ kinds then (.flag true, { s with rest := afterNext s.rest })
    else (.flag false, s)
  | .expect kind text =>
    if (next s.rest).kind = kind then (.token (next s.rest), { s with rest := afterNext s.rest })
    else (.failed (problemAt s.rest (.remark text)), s)
  | .problem text token =>
    (.problem (Diagnostic.atToken (token.getD (next s.rest)) (.remark text)), s)
  | .direction => s.answerStep .direction (Parse.direction s.rest)
  | .rule rule => s.answerStep .node (rule.step s.rest)
  | .program => s.answerStep .program (Parse.program s.rest)

/-- The answers of a session, each with the session after it. -/
def run (s : Session) : List Call → List (Answer × Session)
  | [] => []
  | call :: calls =>
    let step := s.perform call
    step :: run step.2 calls

end Session

end Stratagem.Parse
