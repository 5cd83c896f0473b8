import Stratagem.Parse.Expression
import Stratagem.Node.Source

/-!
# Statements and programs

A statement is recognised by its first token. There is no mark between statements, and both branches
of a conditional are required, so a statement ends where its last part ends. A program is at least
one statement, up to the end marker.
-/

namespace Stratagem.Parse

/-- A move in a direction. -/
def moveStatement (ts : List Token) : Step Node ts.length :=
  (expect .move .moveKeyword ts).andThen fun _ r₁ h₁ =>
    (direction r₁).andThen fun d r₂ h₂ => .done (.move (some d)) r₂ (by omega)

/-- A shot in a direction with an expenditure. -/
def shootStatement (ts : List Token) : Step Node ts.length :=
  (expect .shoot .shootKeyword ts).andThen fun _ r₁ h₁ =>
    (direction r₁).andThen fun d r₂ h₂ =>
      (expression r₂).andThen fun expenditure r₃ h₃ =>
        .done (.shoot (some d) expenditure) r₃ (by omega)

/-- An assignment to a name. -/
def assignment (ts : List Token) : Step Node ts.length :=
  (expect .ident .identifier ts).andThen fun name r₁ h₁ =>
    (expect .equal .equalAfterIdentifier r₁).andThen fun _ r₂ h₂ =>
      (expression r₂).andThen fun value r₃ h₃ =>
        .done (.assign (.text name.lexeme) value) r₃ (by omega)

mutual

/-- A statement of any kind. -/
def statement (ts : List Token) : Step Node ts.length :=
  match ts with
  | [] => refuse [] .statement
  | t :: rest =>
    match t.kind with
    | .ifWord => ifStatement (t :: rest)
    | .whileWord => whileStatement (t :: rest)
    | .lbrace => block (t :: rest)
    | .done => .done .done rest (Nat.lt_succ_self _)
    | .move => moveStatement (t :: rest)
    | .shoot => shootStatement (t :: rest)
    | .ident => assignment (t :: rest)
    | _ => refuse (t :: rest) .statement
termination_by 3 * ts.length + 1
decreasing_by all_goals simp only [List.length_cons]; omega

/-- A conditional with both branches. -/
def ifStatement (ts : List Token) : Step Node ts.length :=
  (expect .ifWord .ifKeyword ts).andThen fun _ r₁ h₁ =>
    (expect .lparen .parenAfterIf r₁).andThen fun _ r₂ h₂ =>
      (expression r₂).andThen fun condition r₃ h₃ =>
        (expect .rparen .parenAfterCondition r₃).andThen fun _ r₄ h₄ =>
          (expect .thenWord .thenAfterCondition r₄).andThen fun _ r₅ h₅ =>
            (statement r₅).andThen fun thenBranch r₆ h₆ =>
              (expect .elseWord .elseAfterBranch r₆).andThen fun _ r₇ h₇ =>
                (statement r₇).andThen fun elseBranch r₈ h₈ =>
                  .done (.ifElse condition thenBranch elseBranch) r₈ (by omega)
termination_by 3 * ts.length
decreasing_by all_goals omega

/-- A loop with a condition. -/
def whileStatement (ts : List Token) : Step Node ts.length :=
  (expect .whileWord .whileKeyword ts).andThen fun _ r₁ h₁ =>
    (expect .lparen .parenAfterWhile r₁).andThen fun _ r₂ h₂ =>
      (expression r₂).andThen fun condition r₃ h₃ =>
        (expect .rparen .parenAfterCondition r₃).andThen fun _ r₄ h₄ =>
          (statement r₄).andThen fun body r₅ h₅ =>
            .done (.whileLoop condition body) r₅ (by omega)
termination_by 3 * ts.length
decreasing_by all_goals omega

/-- Statements between braces. -/
def block (ts : List Token) : Step Node ts.length :=
  (expect .lbrace .openingBrace ts).andThen fun _ r₁ h₁ =>
    (statements true r₁).andThen fun inside r₂ h₂ =>
      (expect .rbrace .closingBrace r₂).andThen fun _ r₃ h₃ =>
        .done (.block inside) r₃ (by omega)
termination_by 3 * ts.length
decreasing_by all_goals omega

/-- Statements up to the end marker, or up to a closing brace if they stand in a block. -/
def statements (inBlock : Bool) (ts : List Token) : Step (List Node) (ts.length + 1) :=
  if (next ts).kind = .eof ∨ (inBlock ∧ (next ts).kind = .rbrace) then
    .done [] ts (Nat.lt_succ_self _)
  else
    (statement ts).andThen fun first r₁ h₁ =>
      (statements inBlock r₁).andThen fun others r₂ h₂ =>
        .done (first :: others) r₂ (by omega)
termination_by 3 * ts.length + 2
decreasing_by all_goals omega

end

/-- A whole program. -/
def program (ts : List Token) : Step Program (ts.length + 1) :=
  (statements false ts).andThen fun found rest h =>
    if found.isEmpty then refuse rest .someStatement else .done found rest h

/-- The tokens that a parser holds: those given, with an end marker put behind them if they do not
end with one. Its offset is where the last token ends; line and column are not known. -/
def held (tokens : List Token) : List Token :=
  match tokens.getLast? with
  | none => [{ kind := .eof, lexeme := "" }]
  | some last =>
    if last.kind = .eof then tokens
    else tokens ++ [{ kind := .eof, lexeme := "", pos := last.pos + last.lexeme.length }]

end Stratagem.Parse

namespace Stratagem

/-- The program that a list of tokens spells. -/
def parse (tokens : List Token) : Except Parse.Fault Program :=
  (Parse.program (Parse.held tokens)).result

end Stratagem
