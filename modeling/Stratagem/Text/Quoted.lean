import Stratagem.Text.Printable

/-!
# Quoted texts

A lexeme or a name in a listing stands between single quotes, or between double quotes when it holds
a single quote and no double one. Inside, the backslash, the enclosing quote and every character
that is not printable are escaped.
-/

namespace Stratagem.Text

/-- The character of a hexadecimal digit, in lower case. -/
def hexChar (d : Nat) : Char :=
  if d < 10 then Char.ofNat (0x30 + d) else Char.ofNat (0x57 + d)

/-- The last `width` hexadecimal digits of `n`. -/
def hexDigits : (width : Nat) → Nat → List Char
  | 0, _ => []
  | width + 1, n => hexDigits width (n / 16) ++ [hexChar (n % 16)]

/-- The shortest of the three numeric escapes `\xhh`, `\uhhhh` and `\Uhhhhhhhh` that fits `c`. -/
def numericEscape (c : Char) : List Char :=
  if c.toNat < 0x100 then '\\' :: 'x' :: hexDigits 2 c.toNat
  else if c.toNat < 0x10000 then '\\' :: 'u' :: hexDigits 4 c.toNat
  else '\\' :: 'U' :: hexDigits 8 c.toNat

/-- How a character is written between `quote` marks. -/
def quotedChar (quote c : Char) : List Char :=
  if c = quote ∨ c = '\\' then ['\\', c]
  else if c = '\t' then ['\\', 't']
  else if c = '\n' then ['\\', 'n']
  else if c = '\r' then ['\\', 'r']
  else if isPrintable c then [c]
  else numericEscape c

/-- The mark that encloses a text. -/
def quoteMark (text : List Char) : Char :=
  if '\'' ∈ text ∧ '"' ∉ text then '"' else '\''

/-- A text between quotation marks, with escapes. -/
def quoted (text : String) : String :=
  let mark := quoteMark text.toList
  String.ofList (mark :: (text.toList.flatMap (quotedChar mark) ++ [mark]))

end Stratagem.Text
