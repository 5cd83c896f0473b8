import Stratagem.Node.Fault

/-!
# Trees as source text

A tree is written back as a program: words and symbols with one blank between them, parentheses only
where the tree has them, one line per statement of the program.
-/

namespace Stratagem

/-- A program is a list of statements. -/
abbrev Program := List Node

namespace Node

/-- The first of the nodes whose rendering is no text: a variable whose name is none. -/
def firstNonText : (index : Nat) → List Node → Option RenderFault
  | _, [] => none
  | index, .variable (.text _) :: rest => firstNonText (index + 1) rest
  | index, .variable d :: _ => some (.notText index d.sort)
  | index, _ :: rest => firstNonText (index + 1) rest

/-- The renderings `parts` of `nodes` with a separator between them. -/
def joinParts (separator : String) (nodes : List Node) (parts : List String) :
    Except RenderFault String :=
  match firstNonText 0 nodes with
  | some fault => .error fault
  | none => .ok (separator.intercalate parts)

mutual

/-- The source text of a node. -/
def source : Node → Except RenderFault String
  | .assign name value => do
    let value ← source value
    return name.display ++ " = " ++ value
  | .done => return "done"
  | .move direction => do
    let direction ← directionWord direction
    return "move " ++ direction
  | .shoot direction expenditure => do
    let direction ← directionWord direction
    let expenditure ← source expenditure
    return "shoot " ++ direction ++ " " ++ expenditure
  | .block [] => return "\x7b \x7d"
  | .block (n :: ns) => do
    let first ← source n
    let others ← sources ns
    let inside ← joinParts " " (n :: ns) (first :: others)
    return "\x7b " ++ inside ++ " \x7d"
  | .ifElse condition thenBranch elseBranch => do
    let condition ← source condition
    let thenBranch ← source thenBranch
    let elseBranch ← source elseBranch
    return "if (" ++ condition ++ ") then " ++ thenBranch ++ " else " ++ elseBranch
  | .whileLoop condition body => do
    let condition ← source condition
    let body ← source body
    return "while (" ++ condition ++ ") " ++ body
  | .number value => return value.display
  | .variable name => return name.display
  | .binary op left right => do
    let left ← source left
    let right ← source right
    return left ++ " " ++ op.symbol ++ " " ++ right
  | .paren inner => do
    let inner ← source inner
    return "(" ++ inner ++ ")"
  | .info query =>
    return query.kind.keyword ++
      (match query.direction? with
        | some direction => " " ++ direction.keyword
        | none => "")
  | .bare => throw (.unknownNode "ASTNode")
  | .foreign name _ => throw (.unknownNode name)
  | .datum d => throw (.unknownNode d.sort)

/-- The source texts of a list of nodes. -/
def sources : List Node → Except RenderFault (List String)
  | [] => return []
  | n :: ns => do
    let first ← source n
    let others ← sources ns
    return first :: others

end

/-- The source rendering of a single node. A variable is rendered as its name, whatever datum that
is. -/
def surface : Node → Except RenderFault Datum
  | .variable name => return name
  | n => return .text (← source n)

end Node

/-- The source text of a program. -/
def Program.source (program : Program) : Except Node.RenderFault String := do
  let parts ← Node.sources program
  Node.joinParts "\n" program parts

end Stratagem
