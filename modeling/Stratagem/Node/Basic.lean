import Stratagem.Datum.Display
import Stratagem.Token.Basic

/-!
# Program trees

A program is a list of statements. A statement or an expression is a node; parentheses are kept, so
a tree says exactly how it was written.

The type also holds what a caller may put in the place of a node by mistake: a datum, a node without
a kind, or a node of a class that nothing here knows. So each rendering can say what it does with
them. Names, numbers and directions are data as well; `Node.WellTyped` singles out the trees in
which every field is what it should be.
-/

namespace Stratagem

/-- The six directions. -/
inductive Direction where
  | up | down | upleft | upright | downleft | downright
  deriving DecidableEq, Repr

namespace Direction

/-- All directions. -/
def all : List Direction := [.up, .down, .upleft, .upright, .downleft, .downright]

/-- The keyword of a direction. -/
def keyword : Direction → String
  | .up => "up"
  | .down => "down"
  | .upleft => "upleft"
  | .upright => "upright"
  | .downleft => "downleft"
  | .downright => "downright"

/-- The kind of token that names a direction. -/
def kind : Direction → Token.Kind
  | .up => .up
  | .down => .down
  | .upleft => .upleft
  | .upright => .upright
  | .downleft => .downleft
  | .downright => .downright

/-- The name of a direction in listings. -/
def name (d : Direction) : String := d.kind.name

/-- The direction that a kind of token names. -/
def ofKind? (kind : Token.Kind) : Option Direction := all.find? fun d => d.kind = kind

/-- The direction with a given keyword. -/
def ofKeyword? (keyword : String) : Option Direction := all.find? fun d => d.keyword = keyword

end Direction

/-- The three things a program can ask for. -/
inductive InfoKind where
  | ally | opponent | nearby
  deriving DecidableEq, Repr

namespace InfoKind

/-- All kinds of information. -/
def all : List InfoKind := [.ally, .opponent, .nearby]

/-- The keyword of a kind of information. -/
def keyword : InfoKind → String
  | .ally => "ally"
  | .opponent => "opponent"
  | .nearby => "nearby"

/-- The name of a kind of information in listings. -/
def name : InfoKind → String
  | .ally => "ALLY"
  | .opponent => "OPPONENT"
  | .nearby => "NEARBY"

/-- The kind of information with a given keyword. -/
def ofKeyword? (keyword : String) : Option InfoKind := all.find? fun k => k.keyword = keyword

end InfoKind

/-- A question to the game: only the one for what is nearby has a direction, and it always has. -/
inductive Query where
  | ally
  | opponent
  | nearby (direction : Direction)
  deriving DecidableEq, Repr

namespace Query

/-- What a question asks for. -/
def kind : Query → InfoKind
  | .ally => .ally
  | .opponent => .opponent
  | .nearby _ => .nearby

/-- The direction of a question. -/
def direction? : Query → Option Direction
  | .nearby d => some d
  | _ => none

end Query

/-- The binary operators. -/
inductive Operator where
  | add | sub | mul | div | mod | pow
  deriving DecidableEq, Repr

namespace Operator

/-- All operators. -/
def all : List Operator := [.add, .sub, .mul, .div, .mod, .pow]

/-- The symbol of an operator. -/
def symbol : Operator → String
  | .add => "+"
  | .sub => "-"
  | .mul => "*"
  | .div => "/"
  | .mod => "%"
  | .pow => "^"

/-- The operator with a given symbol. -/
def ofSymbol? (symbol : String) : Option Operator := all.find? fun op => op.symbol = symbol

end Operator

/-- The kinds of nodes: seven of statements, then five of expressions. -/
inductive Node.Kind where
  | assign | done | move | shoot | block | ifElse | whileLoop
  | number | variable | binary | paren | info
  deriving DecidableEq, Repr

namespace Node.Kind

/-- All kinds of nodes. -/
def all : List Kind := [
    .assign, .done, .move, .shoot, .block, .ifElse, .whileLoop,
    .number, .variable, .binary, .paren, .info]

/-- The name of a kind in listings. -/
def name : Kind → String
  | .assign => "ASSIGN"
  | .done => "DONE"
  | .move => "MOVE"
  | .shoot => "SHOOT"
  | .block => "BLOCK"
  | .ifElse => "IF_STMT"
  | .whileLoop => "WHILE_STMT"
  | .number => "NUMBER"
  | .variable => "VARIABLE"
  | .binary => "BINARY_OP"
  | .paren => "PAREN"
  | .info => "INFO"

/-- The tag of a kind in trees, graphs and records. -/
def tag : Kind → String
  | .assign => "Assign"
  | .done => "Done"
  | .move => "Move"
  | .shoot => "Shoot"
  | .block => "Block"
  | .ifElse => "If"
  | .whileLoop => "While"
  | .number => "Number"
  | .variable => "Variable"
  | .binary => "BinaryOp"
  | .paren => "Paren"
  | .info => "Info"

/-- The kind with a given name. -/
def ofName? (name : String) : Option Kind := all.find? fun kind => kind.name = name

/-- The kind with a given tag. -/
def ofTag? (tag : String) : Option Kind := all.find? fun kind => kind.tag = tag

/-- The name of the constructor of a kind in literals and reports. -/
def constructorName (kind : Kind) : String := kind.tag ++ "Node"

/-- Whether nodes of a kind are statements. -/
def isStatement : Kind → Bool
  | .assign | .done | .move | .shoot | .block | .ifElse | .whileLoop => true
  | _ => false

end Node.Kind

/-- A node of a program tree, or what stands in the place of one. -/
inductive Node where
  | assign (name : Datum) (value : Node)
  | done
  | move (direction : Option Direction)
  | shoot (direction : Option Direction) (expenditure : Node)
  | block (statements : List Node)
  | ifElse (condition thenBranch elseBranch : Node)
  | whileLoop (condition body : Node)
  | number (value : Datum)
  | variable (name : Datum)
  | binary (op : Operator) (left right : Node)
  | paren (inner : Node)
  | info (query : Query)
  /-- A node that has no kind. -/
  | bare
  /-- A node of an unknown class, given by its name, that claims a kind. -/
  | foreign (name : String) (kind : Node.Kind)
  /-- No node at all. -/
  | datum (value : Datum)
  deriving Repr

namespace Node

instance : Inhabited Node := ⟨.done⟩

/-- The kind of a node of the twelve kinds. -/
def kind? : Node → Option Kind
  | .assign .. => some .assign
  | .done => some .done
  | .move _ => some .move
  | .shoot .. => some .shoot
  | .block _ => some .block
  | .ifElse .. => some .ifElse
  | .whileLoop .. => some .whileLoop
  | .number _ => some .number
  | .variable _ => some .variable
  | .binary .. => some .binary
  | .paren _ => some .paren
  | .info _ => some .info
  | .bare | .foreign .. | .datum _ => none

/-- Whether a node is a statement. -/
def isStatement (n : Node) : Bool := n.kind?.any (·.isStatement)

/-- Whether a node is an expression. -/
def isExpression (n : Node) : Bool := n.kind?.any (!·.isStatement)

/-- The name of the sort of what stands in the place of a node, as reports give it. -/
def sort : Node → String
  | .bare => "ASTNode"
  | .foreign name _ => name
  | .datum d => d.sort
  | n => (n.kind?.map Kind.constructorName).getD ""

mutual

/-- The number of nodes of a tree. -/
def size : Node → Nat
  | .assign _ value => size value + 1
  | .shoot _ expenditure => size expenditure + 1
  | .block statements => sizes statements + 1
  | .ifElse condition thenBranch elseBranch =>
    size condition + size thenBranch + size elseBranch + 1
  | .whileLoop condition body => size condition + size body + 1
  | .binary _ left right => size left + size right + 1
  | .paren inner => size inner + 1
  | _ => 1

/-- The number of nodes of a list of trees. -/
def sizes : List Node → Nat
  | [] => 0
  | n :: ns => size n + sizes ns

end

mutual

/-- Whether every field of a tree is of its sort: nodes are of the twelve kinds, names are texts,
numbers are integers and directions are there. -/
def WellTyped : Node → Prop
  | .assign name value => (∃ s, name = .text s) ∧ WellTyped value
  | .done => True
  | .move direction => direction.isSome
  | .shoot direction expenditure => direction.isSome ∧ WellTyped expenditure
  | .block statements => AllWellTyped statements
  | .ifElse condition thenBranch elseBranch =>
    WellTyped condition ∧ WellTyped thenBranch ∧ WellTyped elseBranch
  | .whileLoop condition body => WellTyped condition ∧ WellTyped body
  | .number value => ∃ n, value = .int n
  | .variable name => ∃ s, name = .text s
  | .binary _ left right => WellTyped left ∧ WellTyped right
  | .paren inner => WellTyped inner
  | .info _ => True
  | .bare => False
  | .foreign .. => False
  | .datum _ => False

/-- Whether every tree of a list is well typed. -/
def AllWellTyped : List Node → Prop
  | [] => True
  | n :: ns => WellTyped n ∧ AllWellTyped ns

end

end Node

end Stratagem
