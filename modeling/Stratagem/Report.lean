import Stratagem.Datum.Json
import Stratagem.Drawing
import Stratagem.Node.Record
import Stratagem.Parse.Statement
import Stratagem.Token.Scan

/-!
# Reports on programs

A report on a program says what the caller asked for: its tokens, its outline, its source written
anew, its data, its drawing. A program with an error gets one line that says so, after the tokens if
there are any, and nothing else is done.
-/

namespace Stratagem

/-- Why a text is no program. -/
inductive SourceFault where
  | scan (d : Diagnostic)
  | parse (fault : Parse.Fault)
  deriving DecidableEq, Repr

/-- The report on a text that is no program. -/
def SourceFault.message : SourceFault → String
  | .scan d => d.message
  | .parse fault => fault.message

/-- The program that a text spells. -/
def parseText (text : String) : Except SourceFault Program := do
  let tokens ← (scan text).mapError .scan
  (parse tokens).mapError .parse

/-- What ends a run before its time. -/
inductive Failure where
  | operator (lexeme : String)
  | render (fault : Node.RenderFault)
  | drawing (fault : Drawing.Fault)
  | files (fault : Files.Fault)
  | malformed (m : Text.Utf8.Malformed)
  deriving Repr

/-- The wording of a failure. -/
def Failure.message : Failure → String
  | .operator lexeme => (Parse.Fault.unknownOperator lexeme).message
  | .render fault => fault.message
  | .drawing fault => fault.message
  | .files fault => fault.message
  | .malformed m => m.message

/-- A finished run: its result, what it wrote to the two output streams, and the files after it. -/
structure Run (α : Type) where
  result : Except Failure α
  out : String
  err : String
  store : Files.Store

namespace Run

/-- The run with more output before it. -/
def after {α : Type} (run : Run α) (out : String) : Run α := { run with out := out ++ run.out }

/-- The run with its result changed. -/
def map {α β : Type} (f : α → β) (run : Run α) : Run β :=
  ⟨run.result.map f, run.out, run.err, run.store⟩

end Run

namespace Report

/-- The parts of a report. -/
structure Options where
  tokens : Bool := false
  outline : Bool := true
  source : Bool := false
  json : Bool := false
  drawing : Datum := .absent
  format : Datum := .text "svg"
  deriving Repr

/-- The number of tokens that a listing shows. -/
def listingLimit : Nat := 50

/-- A number in at least three places. -/
def padded (n : Nat) : String :=
  let text := Decimal.natText n
  String.ofList (List.replicate (3 - text.length) ' ') ++ text

/-- The lines of tokens, the first of which has the given number. -/
def tokenLines (index : Nat) : List Token → List String
  | [] => []
  | t :: ts => ("  " ++ padded index ++ ": " ++ t.display ++ "\n") :: tokenLines (index + 1) ts

/-- The listing of tokens. -/
def tokenListing (tokens : List Token) : String :=
  "Tokens (" ++ Decimal.natText tokens.length ++ "):\n" ++
    String.join (tokenLines 0 (tokens.take listingLimit)) ++
    (if listingLimit < tokens.length then
      "  ... and " ++ Decimal.natText (tokens.length - listingLimit) ++ " more\n"
    else "")

/-- The line about an error. -/
def errorLine (message : String) : String := "✗ " ++ message ++ "\n"

/-- A heading and a text below it. -/
def chapter (title text : String) : String := "\n" ++ title ++ ":\n" ++ text ++ "\n"

/-- The chapters that are asked for, up to the first that cannot be rendered. -/
def chapters : List (Bool × String × Except Node.RenderFault String) →
    String × Option Node.RenderFault
  | [] => ("", none)
  | (false, _, _) :: rest => chapters rest
  | (true, _, .error fault) :: _ => ("", some fault)
  | (true, title, .ok text) :: rest => (chapter title text ++ (chapters rest).1, (chapters rest).2)

/-- The chapters on a program: its outline, its source and its data. -/
def programChapters (options : Options) (program : Program) : String × Option Node.RenderFault :=
  chapters [
    (options.outline, "AST", program.outline),
    (options.source, "Source", program.source),
    (options.json, "JSON", program.data.map Datum.json)]

/-- The part of a report that a drawing makes, if its path is anything at all. -/
def drawingPart (options : Options) (tool : LayoutTool) (store : Files.Store) (program : Program) :
    Run Bool :=
  if options.drawing.isNothing then ⟨.ok true, "", "", store⟩
  else
    let outcome := Drawing.draw tool store options.drawing options.format program
    match outcome.fault with
    | some fault => ⟨.error (.drawing fault), outcome.report, outcome.complaint, outcome.store⟩
    | none => ⟨.ok true, outcome.report, outcome.complaint, outcome.store⟩

/-- The report on a program. -/
def onProgram (options : Options) (tool : LayoutTool) (store : Files.Store) (program : Program) :
    Run Bool :=
  match programChapters options program with
  -- what was rendered before the fault has been written already
  | (out, some fault) => ⟨.error (.render fault), out, "", store⟩
  | (out, none) => (drawingPart options tool store program).after out

/-- The report on tokens, which may or may not spell a program. -/
def onTokens (options : Options) (tool : LayoutTool) (store : Files.Store) (tokens : List Token) :
    Run Bool :=
  match parse tokens with
  | .ok program => onProgram options tool store program
  | .error (.problem d) => ⟨.ok false, errorLine d.message, "", store⟩
  | .error (.unknownOperator lexeme) => ⟨.error (.operator lexeme), "", "", store⟩

/-- The report on a text; its result says whether the text is a program. -/
def onText (options : Options) (tool : LayoutTool) (store : Files.Store) (text : String) :
    Run Bool :=
  match scan text with
  | .error d => ⟨.ok false, errorLine d.message, "", store⟩
  | .ok tokens =>
    (onTokens options tool store tokens).after (if options.tokens then tokenListing tokens else "")

end Report

end Stratagem
