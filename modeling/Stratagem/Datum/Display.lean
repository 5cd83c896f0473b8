import Stratagem.Datum.Basic
import Stratagem.Text.Quoted
import Stratagem.Text.Decimal

/-!
# Data in listings

Inside another value a datum stands as a literal, so texts are quoted; on its own it is displayed,
and a text is then shown without quotes.
-/

namespace Stratagem.Datum

mutual

/-- The literal of a datum. -/
def literal : Datum → String
  | .absent => "None"
  | .bool true => "True"
  | .bool false => "False"
  | .int n => Decimal.text n
  | .text s => Text.quoted s
  | .list items => "[" ++ ", ".intercalate (literals items) ++ "]"
  | .record fields => "\x7b" ++ ", ".intercalate (fieldLiterals fields) ++ "\x7d"

/-- The literals of a list of data. -/
def literals : List Datum → List String
  | [] => []
  | d :: ds => literal d :: literals ds

/-- The literals of the fields of a record. -/
def fieldLiterals : List (String × Datum) → List String
  | [] => []
  | (key, d) :: fields => (Text.quoted key ++ ": " ++ literal d) :: fieldLiterals fields

end

/-- A datum as it is shown on its own. -/
def display : Datum → String
  | .text s => s
  | d => d.literal

@[simp] theorem display_text (s : String) : (Datum.text s).display = s := rfl

@[simp] theorem display_int (n : Int) : (Datum.int n).display = Decimal.text n := by
  simp [display, literal]

end Stratagem.Datum
