import Stratagem.Token.Scan

/-!
# Scanning step by step

A session drives one cursor by calls in any order, also past the end of the text and after calls
that failed. The cursor is all that a call hands to the next one.
-/

namespace Stratagem.Scan

open Text

/-- What one can ask of a cursor. A problem is reported at the given place; what is left open is
taken from the cursor. -/
inductive Call where
  | advance
  | skipBlanks
  | skipLine
  | number
  | word
  | nextToken
  | tokens
  | problem (text : String) (lexeme : Option String) (pos line column : Option Int)
  deriving Repr

/-- Why a call fails: a problem in the text, or a word asked for where the text has ended. -/
inductive Fault where
  | problem (d : Diagnostic)
  | noWord
  deriving DecidableEq, Repr

/-- The report on a failed call. -/
def Fault.message : Fault → String
  | .problem d => d.message
  | .noWord => "sequence item 0: expected str instance, NoneType found"

/-- What a call gives back. -/
inductive Answer where
  | nothing
  | token (t : Token)
  | tokens (ts : List Token)
  | problem (d : Diagnostic)
  | failed (f : Fault)
  deriving Repr

/-- The problem that a caller reports at the cursor. -/
def problemAt (c : Cursor) (text : String) (lexeme : Option String) (pos line column : Option Int) :
    Diagnostic :=
  { stage := .scanning
    cause := .remark text
    lexeme := lexeme.getD (String.ofList c.char?.toList)
    position := pos.getD c.pos
    line := line.getD c.line
    column := column.getD c.column }

/-- Does a call: the answer and the cursor it leaves. -/
def perform (c : Cursor) : Call → Answer × Cursor
  | .advance => (.nothing, c.advance)
  | .skipBlanks => (.nothing, c.skipBlanks)
  | .skipLine => (.nothing, c.skipLine)
  | .number =>
    match c.number with
    | (.ok t, c') => (.token t, c')
    | (.error d, c') => (.failed (.problem d), c')
  | .word =>
    match c.word with
    | (some t, c') => (.token t, c')
    | (none, c') => (.failed .noWord, c')
  | .nextToken =>
    match c.nextToken with
    | (.ok t, c') => (.token t, c')
    | (.error d, c') => (.failed (.problem d), c')
  | .tokens =>
    match c.tokens with
    | (.ok ts, c') => (.tokens ts, c')
    | (.error d, c') => (.failed (.problem d), c')
  | .problem text lexeme pos line column => (.problem (problemAt c text lexeme pos line column), c)

/-- The answers of a session, each with the cursor after it. -/
def session (c : Cursor) : List Call → List (Answer × Cursor)
  | [] => []
  | call :: calls =>
    let step := perform c call
    step :: session step.2 calls

end Stratagem.Scan
