import Stratagem.Node.Outline

/-!
# Programs as graphs

The graph of a program is a tree below one root. Each node of the program is a vertex, numbered in
pre-order; it has a label with the kind and the scalar fields of the node, and one edge comes in
from its parent, labelled with its role there.

The vertices come from a loop over a stack of nodes that are still to be visited. It ends because a
visit takes one node off the stack and puts back only what is below it (`childrenSize_lt`).
-/

namespace Stratagem.Graph

open Node

/-- A vertex: the number of its parent, where none is the root, its role there and its label. -/
structure Vertex where
  parent : Option Nat
  role : String
  label : String
  deriving DecidableEq, Repr

/-- The label of a node. Its lines are parted by the two characters of a line break in a label. -/
def label : Node → Except RenderFault String
  | .assign name _ => return "Assign\\n" ++ name.display
  | .done => return "Done"
  | .move direction => do
    let direction ← directionWord direction
    return "Move\\n" ++ direction
  | .shoot direction _ => do
    let direction ← directionWord direction
    return "Shoot\\n" ++ direction
  | .block _ => return "Block"
  | .ifElse .. => return "If"
  | .whileLoop .. => return "While"
  | .number value => return "Number\\n" ++ value.display
  | .variable name => return "Variable\\n" ++ name.display
  | .binary op _ _ => return "BinaryOp\\n" ++ op.symbol
  | .paren _ => return "Paren"
  | .info query =>
    return "Info\\n" ++ query.kind.keyword ++
      (match query.direction? with
        | some direction => " " ++ direction.keyword
        | none => "")
  | .bare => throw (.unknownNode "ASTNode")
  | .foreign name _ => throw (.unknownNode name)
  | .datum d => throw (.unknownNode d.sort)

/-- Statements with their roles, the first of which has the given index. -/
def withRoles (index : Nat) : List Node → List (String × Node)
  | [] => []
  | n :: ns => (statementRole index, n) :: withRoles (index + 1) ns

/-- The children of a node with their roles, from left to right. -/
def children : Node → List (String × Node)
  | .assign _ value => [("value", value)]
  | .shoot _ expenditure => [("expenditure", expenditure)]
  | .block statements => withRoles 0 statements
  | .ifElse condition thenBranch elseBranch =>
    [("condition", condition), ("then", thenBranch), ("else", elseBranch)]
  | .whileLoop condition body => [("condition", condition), ("body", body)]
  | .binary _ left right => [("left", left), ("right", right)]
  | .paren inner => [("inner", inner)]
  | _ => []

/-- A node that is still to be visited. -/
structure Pending where
  parent : Option Nat
  role : String
  node : Node

/-- The number of nodes in what is still to be visited. -/
def pendingSize : List Pending → Nat
  | [] => 0
  | p :: ps => p.node.size + pendingSize ps

theorem pendingSize_append (ps qs : List Pending) :
    pendingSize (ps ++ qs) = pendingSize ps + pendingSize qs := by
  induction ps with
  | nil => simp [pendingSize]
  | cons p ps ih => simp only [List.cons_append, pendingSize, ih]; omega

/-- Nodes with roles below one parent, to be visited in order. -/
def pend (parent : Option Nat) (nodes : List (String × Node)) : List Pending :=
  nodes.map fun entry => ⟨parent, entry.1, entry.2⟩

theorem pendingSize_withRoles (parent : Option Nat) (index : Nat) (ns : List Node) :
    pendingSize (pend parent (withRoles index ns)) = sizes ns := by
  induction ns generalizing index with
  | nil => simp [withRoles, pend, pendingSize, sizes]
  | cons n ns ih =>
    have := ih (index + 1)
    simp only [pend] at this
    simp [withRoles, pend, pendingSize, sizes, this]

/-- What is below a node is smaller than the node. -/
theorem childrenSize_lt (parent : Option Nat) (n : Node) :
    pendingSize (pend parent (children n)) < n.size := by
  cases n with
  | block statements => simp [children, pendingSize_withRoles, size]
  | _ => simp [children, pend, pendingSize, size] <;> omega

/-- Visits what is pending, the next vertex having the number `index`. -/
def visit (index : Nat) (stack : List Pending) : Except RenderFault (List Vertex) :=
  match stack with
  | [] => return []
  | p :: ps => do
    -- the children go in front of the rest, so the order is pre-order
    let label ← label p.node
    let others ← visit (index + 1) (pend (some index) (children p.node) ++ ps)
    return ⟨p.parent, p.role, label⟩ :: others
termination_by pendingSize stack
decreasing_by
  have := childrenSize_lt (some index) p.node
  simp only [pendingSize_append, pendingSize]
  omega

/-- The vertices of the graph of a program, in the order of their numbers. -/
def vertices (program : Program) : Except RenderFault (List Vertex) :=
  visit 0 (pend none (withRoles 0 program))

end Stratagem.Graph
