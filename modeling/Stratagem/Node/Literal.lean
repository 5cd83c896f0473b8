import Stratagem.Node.Basic

/-!
# Trees as literals

A node is shown as its constructor applied to its named fields.
-/

namespace Stratagem.Node

/-- The literal of a direction, or of its absence. -/
def directionLiteral : Option Direction → String
  | some d => "<Direction." ++ d.name ++ ": " ++ Text.quoted d.keyword ++ ">"
  | none => "None"

/-- The literal of a kind of information. -/
def infoLiteral (k : InfoKind) : String :=
  "<InfoKind." ++ k.name ++ ": " ++ Text.quoted k.keyword ++ ">"

/-- A constructor applied to named fields. -/
def application (constructor : String) (fields : List (String × String)) : String :=
  constructor ++ "(" ++ ", ".intercalate (fields.map fun field => field.1 ++ "=" ++ field.2) ++ ")"

/-- A tuple of literals; one of length one has a trailing comma. -/
def tuple : List String → String
  | [item] => "(" ++ item ++ ",)"
  | items => "(" ++ ", ".intercalate items ++ ")"

mutual

/-- The literal of a node. -/
def literal : Node → String
  | .assign name value =>
    application "AssignNode" [("name", name.literal), ("value", literal value)]
  | .done => application "DoneNode" []
  | .move direction => application "MoveNode" [("direction", directionLiteral direction)]
  | .shoot direction expenditure =>
    application "ShootNode" [("direction", directionLiteral direction),
      ("expenditure", literal expenditure)]
  | .block statements => application "BlockNode" [("statements", tuple (literals statements))]
  | .ifElse condition thenBranch elseBranch =>
    application "IfNode" [("condition", literal condition), ("then_branch", literal thenBranch),
      ("else_branch", literal elseBranch)]
  | .whileLoop condition body =>
    application "WhileNode" [("condition", literal condition), ("body", literal body)]
  | .number value => application "NumberNode" [("value", value.literal)]
  | .variable name => application "VariableNode" [("name", name.literal)]
  | .binary op left right =>
    application "BinaryOpNode" [("operator", Text.quoted op.symbol), ("left", literal left),
      ("right", literal right)]
  | .paren inner => application "ParenNode" [("inner", literal inner)]
  | .info query =>
    application "InfoNode" [("kind", infoLiteral query.kind),
      ("direction", directionLiteral query.direction?)]
  | .bare => application "ASTNode" []
  | .foreign name _ => application name []
  | .datum d => d.literal

/-- The literals of a list of nodes. -/
def literals : List Node → List String
  | [] => []
  | n :: ns => literal n :: literals ns

end

end Stratagem.Node
