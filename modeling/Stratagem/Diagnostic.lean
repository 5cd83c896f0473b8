import Stratagem.Token.Basic

/-!
# Diagnostics

What is wrong with a program, and where. A diagnostic names its cause, the offending spelling and
the place; `Diagnostic.message` is the one line that reports it.
-/

namespace Stratagem

/-- What a parser wanted to see at some place. -/
inductive Expectation where
  | direction
  | expression
  | closingParen
  | openingBrace
  | closingBrace
  | ifKeyword
  | parenAfterIf
  | parenAfterCondition
  | thenAfterCondition
  | elseAfterBranch
  | whileKeyword
  | parenAfterWhile
  | moveKeyword
  | shootKeyword
  | identifier
  | equalAfterIdentifier
  | statement
  | someStatement
  deriving DecidableEq, Repr

/-- The wording of an expectation. -/
def Expectation.text : Expectation → String
  | .direction => "Expected direction"
  | .expression => "Expected expression"
  | .closingParen => "Expected ')'"
  | .openingBrace => "Expected '\x7b'"
  | .closingBrace => "Expected '\x7d' after block"
  | .ifKeyword => "Expected 'if'"
  | .parenAfterIf => "Expected '(' after 'if'"
  | .parenAfterCondition => "Expected ')' after condition"
  | .thenAfterCondition => "Expected 'then' after condition"
  | .elseAfterBranch => "Expected 'else' after then branch"
  | .whileKeyword => "Expected 'while'"
  | .parenAfterWhile => "Expected '(' after 'while'"
  | .moveKeyword => "Expected 'move'"
  | .shootKeyword => "Expected 'shoot'"
  | .identifier => "Expected identifier"
  | .equalAfterIdentifier => "Expected '=' after identifier"
  | .statement => "Expected statement"
  | .someStatement => "Expected at least one statement"

namespace Diagnostic

/-- The stage at which a problem is found. -/
inductive Stage where
  | scanning
  | parsing
  | unspecified
  deriving DecidableEq, Repr

/-- The word for a stage in a message. -/
def Stage.label : Stage → String
  | .scanning => "Lexical"
  | .parsing => "Syntax"
  | .unspecified => "Syntax"

/-- The cause of a problem; a remark is free text. -/
inductive Cause where
  | unexpectedCharacter (c : Char)
  | numberOutOfRange
  | expected (what : Expectation)
  | remark (text : String)
  deriving DecidableEq, Repr

/-- The wording of a cause. -/
def Cause.text : Cause → String
  | .unexpectedCharacter c => "Unexpected character: " ++ String.singleton c
  | .numberOutOfRange => "Number out of range for 64-bit integer"
  | .expected what => what.text
  | .remark text => text

end Diagnostic

/-- A problem in a program. -/
structure Diagnostic where
  stage : Diagnostic.Stage
  cause : Diagnostic.Cause
  lexeme : String := ""
  position : Int := 0
  line : Int := 1
  column : Int := 1
  deriving DecidableEq, Repr

namespace Diagnostic

/-- The line that reports a problem. -/
def message (d : Diagnostic) : String :=
  d.stage.label ++ " error at line " ++ Decimal.text d.line ++ ", column " ++
    Decimal.text d.column ++ " (position " ++ Decimal.text d.position ++ ") near '" ++ d.lexeme ++
    "': " ++ d.cause.text

/-- A parsing problem at a token. -/
def atToken (token : Token) (cause : Cause) : Diagnostic :=
  ⟨.parsing, cause, token.lexeme, token.pos, token.line, token.column⟩

end Diagnostic

end Stratagem
