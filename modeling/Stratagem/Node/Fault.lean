import Stratagem.Node.Basic

/-!
# What can go wrong with a tree

A tree is refused when it is put together (`BuildFault`), rendered (`RenderFault`) or compared
(`CompareFault`). The parser meets none of them: they concern trees that come from elsewhere.
-/

namespace Stratagem.Node

/-- Why a node cannot be put together. -/
inductive BuildFault where
  | missingFields (kind : Kind) (fields : List String)
  | unknownOperator (given : Datum)
  | unknownDirection (given : Datum)
  | unknownInfo (given : Datum)
  | directionRequired (kind : InfoKind)
  | directionRefused (kind : InfoKind)
  | notIterable (sort : String)
  deriving Repr

/-- A list of names in a sentence: the last one is joined by a word, after a comma if there are
three or more. -/
def enumeration : List String → String
  | [] => ""
  | [a] => a
  | [a, b] => a ++ " and " ++ b
  | names => ", ".intercalate names.dropLast ++ ", and " ++ names.getLastD ""

/-- The wording of a fault in putting a node together. -/
def BuildFault.message : BuildFault → String
  | .missingFields kind fields =>
    kind.constructorName ++ ".__init__() missing " ++ Decimal.natText fields.length ++
      " required positional argument" ++ (if fields.length = 1 then "" else "s") ++ ": " ++
      enumeration (fields.map Text.quoted)
  | .unknownOperator given => "Unknown binary operator " ++ given.literal
  | .unknownDirection given => given.literal ++ " is not a valid Direction"
  | .unknownInfo given => given.literal ++ " is not a valid InfoKind"
  | .directionRequired kind => "InfoNode(" ++ kind.name ++ ") requires a direction"
  | .directionRefused kind => "InfoNode(" ++ kind.name ++ ") takes no direction"
  | .notIterable sort => "'" ++ sort ++ "' object is not iterable"

/-- Why a tree cannot be rendered. -/
inductive RenderFault where
  | unknownNode (sort : String)
  | notSerializable (sort : String)
  | noKind
  | noDirection
  | notText (index : Nat) (sort : String)
  deriving DecidableEq, Repr

/-- The wording of a fault in rendering a tree. -/
def RenderFault.message : RenderFault → String
  | .unknownNode sort => "Unknown node type: " ++ sort
  | .notSerializable sort => "Cannot serialize node of type " ++ sort
  | .noKind => "'ASTNode' object has no attribute 'type'"
  | .noDirection => "'NoneType' object has no attribute 'value'"
  | .notText index sort =>
    "sequence item " ++ Decimal.natText index ++ ": expected str instance, " ++ sort ++ " found"

/-- Why trees cannot be compared: a node has no kind, or a datum in them cannot be a key. -/
inductive CompareFault where
  | noKind
  | noKey (sort : String)
  deriving DecidableEq, Repr

/-- The wording of a fault in comparing trees. -/
def CompareFault.message : CompareFault → String
  | .noKind => RenderFault.noKind.message
  | .noKey sort => "unhashable type: '" ++ sort ++ "'"

/-- The name of the kind of a node, and nothing for what is no node. -/
def kindName? : Node → Except RenderFault (Option String)
  | .bare => .error .noKind
  | .foreign _ kind => .ok (some kind.name)
  | .datum _ => .ok none
  | n => .ok (n.kind?.map Kind.name)

/-- The keyword of a direction that has to be there. -/
def directionWord : Option Direction → Except RenderFault String
  | some d => .ok d.keyword
  | none => .error .noDirection

end Stratagem.Node
