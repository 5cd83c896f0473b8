import Stratagem.Classes
import Stratagem.Node.Source

/-!
# Equality of trees

Trees are compared field by field, and the comparison ends at the first difference. A node without a
kind cannot be compared with another one of its sort.

Programs are sorted into classes of equal ones. The classes are counted by keys, so there is no count
where a tree has no key: where it holds a node without a kind, a list or a record.
-/

namespace Stratagem

namespace Node

/-- Goes on with a comparison unless it has found a difference. -/
def andSame (first : Except CompareFault Bool) (second : Except CompareFault Bool) :
    Except CompareFault Bool := do
  if ← first then second else return false

mutual

/-- Whether two nodes are equal. -/
def same : Node → Node → Except CompareFault Bool
  | .assign name value, .assign name' value' =>
    andSame (.ok (name.same name')) (same value value')
  | .done, .done => .ok true
  | .move direction, .move direction' => .ok (direction = direction')
  | .shoot direction expenditure, .shoot direction' expenditure' =>
    andSame (.ok (direction = direction')) (same expenditure expenditure')
  | .block statements, .block statements' => allSame statements statements'
  | .ifElse c t e, .ifElse c' t' e' => andSame (same c c') (andSame (same t t') (same e e'))
  | .whileLoop c b, .whileLoop c' b' => andSame (same c c') (same b b')
  | .number value, .number value' => .ok (value.same value')
  | .variable name, .variable name' => .ok (name.same name')
  | .binary op l r, .binary op' l' r' =>
    andSame (.ok (op = op')) (andSame (same l l') (same r r'))
  | .paren inner, .paren inner' => same inner inner'
  | .info query, .info query' => .ok (query = query')
  | .bare, .bare => .error .noKind
  | .foreign name kind, .foreign name' kind' => .ok (name = name' ∧ kind = kind')
  | .datum d, .datum d' => .ok (d.same d')
  | _, _ => .ok false

/-- Whether two lists of nodes are equal. -/
def allSame : List Node → List Node → Except CompareFault Bool
  | [], [] => .ok true
  | n :: ns, n' :: ns' => andSame (same n n') (allSame ns ns')
  | _, _ => .ok false

end

/-- Checks that a datum has a key. -/
def checkScalar (d : Datum) : Except CompareFault Unit :=
  if d.isKey then .ok () else .error (.noKey d.sort)

mutual

/-- Checks that a node has a key, its fields from left to right. -/
def checkKey : Node → Except CompareFault Unit
  | .assign name value => do
    checkScalar name
    checkKey value
  | .shoot _ expenditure => checkKey expenditure
  | .block statements => checkKeys statements
  | .ifElse condition thenBranch elseBranch => do
    checkKey condition
    checkKey thenBranch
    checkKey elseBranch
  | .whileLoop condition body => do
    checkKey condition
    checkKey body
  | .number value => checkScalar value
  | .variable name => checkScalar name
  | .binary _ left right => do
    checkKey left
    checkKey right
  | .paren inner => checkKey inner
  | .done | .move _ | .info _ | .foreign .. => .ok ()
  | .bare => .error .noKind
  | .datum d => checkScalar d

/-- Checks that each node of a list has a key. -/
def checkKeys : List Node → Except CompareFault Unit
  | [] => .ok ()
  | n :: ns => do
    checkKey n
    checkKeys ns

end

end Node

/-- Whether two programs are equal. Programs of different length are not looked into. -/
def Program.same (p q : Program) : Except Node.CompareFault Bool :=
  if p.length = q.length then Node.allSame p q else .ok false

/-- The classes of a list of programs, each of which needs a key. -/
def Program.classes (programs : List Program) : Except Node.CompareFault (List Nat) := do
  let classes ← Classes.ofList Program.same programs
  programs.forM Node.checkKeys
  return classes

end Stratagem
