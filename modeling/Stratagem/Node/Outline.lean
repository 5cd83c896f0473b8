import Stratagem.Node.Source

/-!
# Trees as indented outlines

An outline has one line per node, in pre-order. A line shows the role of the node in its parent, its
kind and its scalar fields; a child is two or four blanks deeper than its parent. A datum in the
place of a node is shown as it is, and an empty line below a node is left out.
-/

namespace Stratagem

namespace Node

/-- One line of an outline. A negative indent counts as none. -/
def outlineLine (indent : Int) (role content : String) : String :=
  String.ofList (List.replicate indent.toNat ' ') ++ role ++ content

/-- The role of the statement with a given index. -/
def statementRole (index : Nat) : String := "stmt[" ++ Decimal.natText index ++ "]"

/-- A direction in an outline. -/
def directionName : Option Direction → String
  | some d => d.name
  | none => "None"

/-- The lines that are not empty. -/
def visible (lines : List String) : List String := lines.filter (· ≠ "")

mutual

/-- The lines of the outline of a node. -/
def outline (indent : Int) (role : String) : Node → Except RenderFault (List String)
  | .assign name value => do
    let value ← outline (indent + 2) "value: " value
    return outlineLine indent role ("Assign(" ++ name.display ++ ")") :: visible value
  | .done => return [outlineLine indent role "Done"]
  | .move direction => return [outlineLine indent role ("Move(" ++ directionName direction ++ ")")]
  | .shoot direction expenditure => do
    let expenditure ← outline (indent + 2) "expenditure: " expenditure
    return outlineLine indent role ("Shoot(" ++ directionName direction ++ ")") ::
      visible expenditure
  | .block statements => do
    let statements ← outlines (indent + 4) 0 statements
    return outlineLine indent role "Block" :: visible statements
  | .ifElse condition thenBranch elseBranch => do
    let condition ← outline (indent + 4) "condition: " condition
    let thenBranch ← outline (indent + 4) "then: " thenBranch
    let elseBranch ← outline (indent + 4) "else: " elseBranch
    return outlineLine indent role "If" :: visible (condition ++ thenBranch ++ elseBranch)
  | .whileLoop condition body => do
    let condition ← outline (indent + 4) "condition: " condition
    let body ← outline (indent + 4) "body: " body
    return outlineLine indent role "While" :: visible (condition ++ body)
  | .number value => return [outlineLine indent role ("Number(" ++ value.display ++ ")")]
  | .variable name => return [outlineLine indent role ("Variable(" ++ name.display ++ ")")]
  | .binary op left right => do
    let left ← outline (indent + 2) "left: " left
    let right ← outline (indent + 2) "right: " right
    return outlineLine indent role ("BinaryOp(" ++ op.symbol ++ ")") :: visible (left ++ right)
  | .paren inner => do
    let inner ← outline (indent + 2) "" inner
    return outlineLine indent role "Paren" :: visible inner
  | .info query =>
    return [outlineLine indent role ("Info(" ++ query.kind.name ++
      (match query.direction? with
        | some direction => ", " ++ direction.name
        | none => "") ++ ")")]
  | .bare => throw (.unknownNode "ASTNode")
  | .foreign name _ => throw (.unknownNode name)
  | .datum d => return [outlineLine indent role d.display]

/-- The lines of the outlines of statements, the first of which has the given index. -/
def outlines (indent : Int) (index : Nat) : List Node → Except RenderFault (List String)
  | [] => return []
  | n :: ns => do
    let first ← outline indent (statementRole index ++ ": ") n
    let others ← outlines indent (index + 1) ns
    return first ++ others

end

/-- The outline of a node as text. -/
def outlineText (indent : Int) (role : String) (n : Node) : Except RenderFault String := do
  return "\n".intercalate (← n.outline indent role)

end Node

/-- The outline of a program: a heading and the outlines of its statements. -/
def Program.outline (program : Program) : Except Node.RenderFault String := do
  return "\n".intercalate ("Program" :: (← Node.outlines 4 0 program))

end Stratagem
