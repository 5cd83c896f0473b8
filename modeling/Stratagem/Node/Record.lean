import Stratagem.Node.Source

/-!
# Trees as data

A node is written as a record: the tag of its kind and its fields, directions and kinds of
information by their keywords. Below, the records are read back: `Node.read` takes the fields of a
record in the order of its kind and puts the node together, so that it refuses what cannot be a node
and says why.
-/

namespace Stratagem

namespace Node

/-- A record with the tag of a kind and further fields. -/
def tagged (kind : Kind) (fields : List (String × Datum)) : Datum :=
  .record (("node_type", .text kind.tag) :: fields)

mutual

/-- The record of a node. An absent node has an absent record. -/
def record : Node → Except RenderFault Datum
  | .assign name value => do
    let value ← record value
    return tagged .assign [("name", name), ("value", value)]
  | .done => return tagged .done []
  | .move direction => do
    let direction ← directionWord direction
    return tagged .move [("direction", .text direction)]
  | .shoot direction expenditure => do
    let direction ← directionWord direction
    let expenditure ← record expenditure
    return tagged .shoot [("direction", .text direction), ("expenditure", expenditure)]
  | .block statements => do
    let statements ← records statements
    return tagged .block [("statements", .list statements)]
  | .ifElse condition thenBranch elseBranch => do
    let condition ← record condition
    let thenBranch ← record thenBranch
    let elseBranch ← record elseBranch
    return tagged .ifElse [("condition", condition), ("then", thenBranch), ("else", elseBranch)]
  | .whileLoop condition body => do
    let condition ← record condition
    let body ← record body
    return tagged .whileLoop [("condition", condition), ("body", body)]
  | .number value => return tagged .number [("value", value)]
  | .variable name => return tagged .variable [("name", name)]
  | .binary op left right => do
    let left ← record left
    let right ← record right
    return tagged .binary [("operator", .text op.symbol), ("left", left), ("right", right)]
  | .paren inner => do
    let inner ← record inner
    return tagged .paren [("inner", inner)]
  | .info query =>
    return tagged .info [("kind", .text query.kind.keyword),
      ("direction", match query.direction? with
        | some direction => .text direction.keyword
        | none => .absent)]
  | .bare => throw .noKind
  | .foreign name _ => throw (.notSerializable name)
  | .datum .absent => return .absent
  | .datum d => throw (.notSerializable d.sort)

/-- The records of a list of nodes. -/
def records : List Node → Except RenderFault (List Datum)
  | [] => return []
  | n :: ns => do
    let first ← record n
    let others ← records ns
    return first :: others

end

/-! ## Reading records -/

/-- What the value of a field can stand for: a datum, a node, or a list of statements. -/
structure Part where
  datum : Datum
  node : Except BuildFault Node
  statements : Except BuildFault (List Node)

/-- The fields of a record, read. -/
abbrev Parts := List (String × Part)

namespace Parts

/-- The node in a field, if the field is there. -/
def node? (parts : Parts) (key : String) : Except BuildFault (Option Node) :=
  match parts.lookup key with
  | some part => part.node.map some
  | none => .ok none

/-- The datum in a field, if the field is there. -/
def datum? (parts : Parts) (key : String) : Option Datum := (parts.lookup key).map (·.datum)

/-- The direction in a field, if the field is there; it may be absent. -/
def direction? (parts : Parts) : Except BuildFault (Option (Option Direction)) :=
  match parts.datum? "direction" with
  | none => .ok none
  | some .absent => .ok (some none)
  | some (.text word) =>
    match Direction.ofKeyword? word with
    | some direction => .ok (some (some direction))
    | none => .error (.unknownDirection (.text word))
  | some d => .error (.unknownDirection d)

/-- The kind of information in a field, if the field is there. -/
def info? (parts : Parts) : Except BuildFault (Option InfoKind) :=
  match parts.datum? "kind" with
  | none => .ok none
  | some (.text word) =>
    match InfoKind.ofKeyword? word with
    | some kind => .ok (some kind)
    | none => .error (.unknownInfo (.text word))
  | some d => .error (.unknownInfo d)

end Parts

/-- The fault of a node some of whose fields are missing. The flags say which fields are there. -/
def missing (kind : Kind) (fields : List (String × Bool)) : BuildFault :=
  .missingFields kind ((fields.filter (!·.2)).map (·.1))

/-- The operator that a datum names. -/
def operatorOf : Datum → Except BuildFault Operator
  | .text symbol =>
    match Operator.ofSymbol? symbol with
    | some op => .ok op
    | none => .error (.unknownOperator (.text symbol))
  | d => .error (.unknownOperator d)

/-- The question of a kind and perhaps a direction. -/
def queryOf : InfoKind → Option Direction → Except BuildFault Query
  | .ally, none => .ok .ally
  | .opponent, none => .ok .opponent
  | .nearby, some direction => .ok (.nearby direction)
  | .nearby, none => .error (.directionRequired .nearby)
  | kind, some _ => .error (.directionRefused kind)

/-- Puts a node of a kind together from its fields. -/
def assemble (kind : Kind) (parts : Parts) : Except BuildFault Node := do
  match kind with
  | .assign =>
    let name := parts.datum? "name"
    let value ← parts.node? "value"
    match name, value with
    | some name, some value => return .assign name value
    | _, _ => throw (missing kind [("name", name.isSome), ("value", value.isSome)])
  | .done => return .done
  | .move =>
    match ← parts.direction? with
    | some direction => return .move direction
    | none => throw (missing kind [("direction", false)])
  | .shoot =>
    let direction ← parts.direction?
    let expenditure ← parts.node? "expenditure"
    match direction, expenditure with
    | some direction, some expenditure => return .shoot direction expenditure
    | _, _ =>
      throw (missing kind [("direction", direction.isSome), ("expenditure", expenditure.isSome)])
  | .block =>
    match parts.lookup "statements" with
    | some part => return .block (← part.statements)
    | none => return .block []
  | .ifElse =>
    let condition ← parts.node? "condition"
    let thenBranch ← parts.node? "then"
    let elseBranch ← parts.node? "else"
    match condition, thenBranch, elseBranch with
    | some condition, some thenBranch, some elseBranch =>
      return .ifElse condition thenBranch elseBranch
    | _, _, _ =>
      throw (missing kind [("condition", condition.isSome), ("then_branch", thenBranch.isSome),
        ("else_branch", elseBranch.isSome)])
  | .whileLoop =>
    let condition ← parts.node? "condition"
    let body ← parts.node? "body"
    match condition, body with
    | some condition, some body => return .whileLoop condition body
    | _, _ => throw (missing kind [("condition", condition.isSome), ("body", body.isSome)])
  | .number =>
    match parts.datum? "value" with
    | some value => return .number value
    | none => throw (missing kind [("value", false)])
  | .variable =>
    match parts.datum? "name" with
    | some name => return .variable name
    | none => throw (missing kind [("name", false)])
  | .binary =>
    let operator := parts.datum? "operator"
    let left ← parts.node? "left"
    let right ← parts.node? "right"
    match operator, left, right with
    | some operator, some left, some right => return .binary (← operatorOf operator) left right
    | _, _, _ =>
      throw (missing kind [("operator", operator.isSome), ("left", left.isSome),
        ("right", right.isSome)])
  | .paren =>
    match ← parts.node? "inner" with
    | some inner => return .paren inner
    | none => throw (missing kind [("inner", false)])
  | .info =>
    let info ← parts.info?
    let direction ← parts.direction?
    match info with
    | some info => return .info (← queryOf info (direction.getD none))
    | none => throw (missing kind [("kind", false)])

/-- The node that the tag of a record announces. A record with no known tag is a datum. -/
def ofTag (tag : Option Datum) (fields : List (String × Datum)) (parts : Parts) :
    Except BuildFault Node :=
  match tag with
  | some (.text "ASTNode") => .ok .bare
  | some (.text "Unknown") =>
    match fields.lookup "type" with
    | some (.text name) =>
      match Kind.ofName? name with
      | some kind => .ok (.foreign "UnknownNode" kind)
      | none => .ok (.datum (.record fields))
    | _ => .ok (.datum (.record fields))
  | some (.text tag) =>
    match Kind.ofTag? tag with
    | some kind => assemble kind parts
    | none => .ok (.datum (.record fields))
  | _ => .ok (.datum (.record fields))

mutual

/-- The node that a datum describes. What is no record is a datum in the place of a node. -/
def read : Datum → Except BuildFault Node
  | .record fields => ofTag (fields.lookup "node_type") fields (readFields fields)
  | d => .ok (.datum d)

/-- The nodes that the items of a list describe. -/
def readItems : List Datum → Except BuildFault (List Node)
  | [] => return []
  | d :: ds => do
    let first ← read d
    let others ← readItems ds
    return first :: others

/-- The fields of a record, read. Statements are the items of a list, the characters of a text or
the keys of a record. -/
def readFields : List (String × Datum) → Parts
  | [] => []
  | (key, .list items) :: fields =>
    (key, ⟨.list items, .ok (.datum (.list items)), readItems items⟩) :: readFields fields
  | (key, .text s) :: fields =>
    (key, ⟨.text s, .ok (.datum (.text s)),
      .ok (s.toList.map fun c => .datum (.text (String.singleton c)))⟩) :: readFields fields
  | (key, .record inner) :: fields =>
    (key, ⟨.record inner, ofTag (inner.lookup "node_type") inner (readFields inner),
      .ok (inner.map fun entry => .datum (.text entry.1))⟩) :: readFields fields
  | (key, d) :: fields =>
    (key, ⟨d, .ok (.datum d), .error (.notIterable d.sort)⟩) :: readFields fields

end

end Node

/-- The data of a program: the records of its statements. -/
def Program.data (program : Program) : Except Node.RenderFault Datum := do
  return .list (← Node.records program)

end Stratagem
