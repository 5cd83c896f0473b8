import Stratagem.Graph.Basic

/-!
# Graphs in the DOT language

The text has one line for each general attribute, each vertex and each edge; a vertex is followed by
the edge that comes into it. A word that is no plain identifier stands between double quotes, and
inside them a double quote is escaped unless a backslash does so already.
-/

namespace Stratagem.Graph

/-- Whether a character can start a plain identifier. -/
def startsIdentifier (c : Char) : Bool := c.isAlpha || c = '_'

/-- Whether a character can continue a plain identifier. -/
def continuesIdentifier (c : Char) : Bool := c.isAlphanum || c = '_'

/-- The words of the language itself, in lower case. -/
def reserved : List String := ["node", "edge", "graph", "digraph", "subgraph", "strict"]

/-- Whether a word can stand without quotes. -/
def isPlain (word : String) : Bool :=
  match word.toList with
  | [] => false
  | c :: rest =>
    startsIdentifier c && rest.all continuesIdentifier &&
      !reserved.contains (String.ofList ((c :: rest).map Char.toLower))

/-- A text between double quotes. The flag says whether an odd number of backslashes stands before
the text. -/
def escapeQuotes : (escaped : Bool) → List Char → List Char
  | _, [] => []
  | escaped, c :: rest =>
    if c = '"' then
      if escaped then '"' :: escapeQuotes false rest else '\\' :: '"' :: escapeQuotes false rest
    else if c = '\\' then '\\' :: escapeQuotes (!escaped) rest
    else c :: escapeQuotes false rest

/-- A word of a graph as the language writes it. -/
def word (text : String) : String :=
  if isPlain text then text
  else String.ofList ('"' :: (escapeQuotes false text.toList ++ ['"']))

/-- The identifier of a vertex; the root has a name of its own. -/
def identifier : Option Nat → String
  | none => "program"
  | some index => "n" ++ Decimal.natText index

/-- The line of a vertex and the line of the edge into it. -/
def vertexLines (index : Nat) (v : Vertex) : List String := [
    "\t" ++ identifier (some index) ++ " [label=" ++ word v.label ++ "]",
    "\t" ++ identifier v.parent ++ " -> " ++ identifier (some index) ++
      " [label=" ++ word v.role ++ "]"]

/-- The lines of vertices, the first of which has the given number. -/
def verticesLines (index : Nat) : List Vertex → List String
  | [] => []
  | v :: vs => vertexLines index v ++ verticesLines (index + 1) vs

/-- The lines before the vertices. -/
def opening : List String := [
    "digraph \x7b",
    "\tgraph [rankdir=TB]",
    "\tnode [fontname=Helvetica shape=box]",
    "\tprogram [label=Program shape=ellipse]"]

/-- The text of a graph. -/
def text (vertices : List Vertex) : String :=
  "\n".intercalate (opening ++ verticesLines 0 vertices ++ ["\x7d", ""])

end Stratagem.Graph

namespace Stratagem

/-- The graph of a program in the DOT language. -/
def Program.dot (program : Program) : Except Node.RenderFault String := do
  return Graph.text (← Graph.vertices program)

end Stratagem
