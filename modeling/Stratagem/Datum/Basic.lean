/-!
# Data

A program tree is written as data and read back from data: absent values, truth values, integers,
texts, lists and records. The scalar fields of a node hold data too, so that a tree which was not
made by the parser can be described and refused where it does not fit.

`Datum.same` is the equality that listings show: a truth value equals the integer zero or one, and
the order of a record's fields does not count.
-/

namespace Stratagem

/-- A piece of data. -/
inductive Datum where
  | absent
  | bool (value : Bool)
  | int (value : Int)
  | text (value : String)
  | list (items : List Datum)
  | record (fields : List (String × Datum))
  deriving Repr

namespace Datum

instance : Inhabited Datum := ⟨.absent⟩

/-- The name of the sort of a datum, as reports give it. -/
def sort : Datum → String
  | .absent => "NoneType"
  | .bool _ => "bool"
  | .int _ => "int"
  | .text _ => "str"
  | .list _ => "list"
  | .record _ => "dict"

/-- The field `key` of a record. -/
def field? (key : String) : Datum → Option Datum
  | .record fields => fields.lookup key
  | _ => none

/-- Whether a datum counts as nothing: it is absent, false or zero, or there is nothing in it. -/
def isNothing : Datum → Bool
  | .absent => true
  | .bool b => !b
  | .int n => n = 0
  | .text s => s.isEmpty
  | .list items => items.isEmpty
  | .record fields => fields.isEmpty

/-- Whether a datum can be a key: lists and records cannot. -/
def isKey : Datum → Bool
  | .list _ | .record _ => false
  | _ => true

/-- An integer or a truth value read as an integer. -/
def asInt? : Datum → Option Int
  | .bool b => some (if b then 1 else 0)
  | .int n => some n
  | _ => none

mutual

/-- Whether two data are equal. -/
def same : Datum → Datum → Bool
  | .absent, .absent => true
  | .text s, .text t => s = t
  | .list xs, .list ys => sameItems xs ys
  | .record fs, .record gs => fs.length = gs.length && sameFields fs gs
  | .bool b, d => d.asInt? = some (if b then 1 else 0)
  | .int n, d => d.asInt? = some n
  | _, _ => false

/-- Whether two lists of data are equal item by item. -/
def sameItems : List Datum → List Datum → Bool
  | [], [] => true
  | x :: xs, y :: ys => same x y && sameItems xs ys
  | _, _ => false

/-- Whether each field of the first list has an equal one in the second. -/
def sameFields : List (String × Datum) → List (String × Datum) → Bool
  | [], _ => true
  | (key, x) :: fs, gs =>
    (match gs.lookup key with
      | some y => same x y
      | none => false) && sameFields fs gs

end

end Datum

end Stratagem
