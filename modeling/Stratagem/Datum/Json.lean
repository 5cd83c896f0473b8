import Stratagem.Datum.Basic
import Stratagem.Text.Quoted
import Stratagem.Text.Decimal

/-!
# Data as indented JSON

The text is pure ASCII: every other character is escaped by its UTF-16 units. Each item of a list
and each field of a record has a line of its own, two blanks deeper than the bracket that holds it;
an empty list or record stays on one line.
-/

namespace Stratagem.Datum

/-- A UTF-16 unit as an escape. -/
def unitEscape (unit : Nat) : List Char := '\\' :: 'u' :: Text.hexDigits 4 unit

/-- How a character is written in a JSON string. -/
def jsonChar (c : Char) : List Char :=
  if c = '"' ∨ c = '\\' then ['\\', c]
  else if c = '\n' then ['\\', 'n']
  else if c = '\r' then ['\\', 'r']
  else if c = '\t' then ['\\', 't']
  else if c.toNat = 0x0C then ['\\', 'f']
  else if c.toNat = 0x08 then ['\\', 'b']
  else if 0x20 ≤ c.toNat ∧ c.toNat ≤ 0x7E then [c]
  else if c.toNat < 0x10000 then unitEscape c.toNat
  else
    let offset := c.toNat - 0x10000
    unitEscape (0xD800 + offset / 0x400) ++ unitEscape (0xDC00 + offset % 0x400)

/-- A JSON string. -/
def jsonString (s : String) : String :=
  String.ofList ('"' :: (s.toList.flatMap jsonChar ++ ['"']))

/-- A line end followed by `depth` steps of two blanks. -/
def jsonBreak (depth : Nat) : String := String.ofList ('\n' :: List.replicate (2 * depth) ' ')

/-- Written parts between brackets, each on a line of its own. -/
def jsonEnclose (opening closing : String) (depth : Nat) (parts : List String) : String :=
  if parts.isEmpty then opening ++ closing
  else opening ++ jsonBreak (depth + 1) ++ ("," ++ jsonBreak (depth + 1)).intercalate parts ++
    jsonBreak depth ++ closing

mutual

/-- The JSON text of a datum that stands `depth` brackets deep. -/
def jsonAt (depth : Nat) : Datum → String
  | .absent => "null"
  | .bool true => "true"
  | .bool false => "false"
  | .int n => Decimal.text n
  | .text s => jsonString s
  | .list items => jsonEnclose "[" "]" depth (jsonItems (depth + 1) items)
  | .record fields => jsonEnclose "\x7b" "\x7d" depth (jsonFields (depth + 1) fields)

/-- The JSON texts of the items of a list. -/
def jsonItems (depth : Nat) : List Datum → List String
  | [] => []
  | d :: ds => jsonAt depth d :: jsonItems depth ds

/-- The JSON texts of the fields of a record. -/
def jsonFields (depth : Nat) : List (String × Datum) → List String
  | [] => []
  | (key, d) :: fields => (jsonString key ++ ": " ++ jsonAt depth d) :: jsonFields depth fields

end

/-- The JSON text of a datum. -/
def json (d : Datum) : String := jsonAt 0 d

end Stratagem.Datum
