import Stratagem.Text.Quoted
import Stratagem.Text.Decimal

/-!
# Reading bytes as text

A source file is a sequence of bytes in strict UTF-8: no overlong form, no surrogate, nothing above
`0x10FFFF`. The first byte of a character says how many continuation bytes follow and which values
the first of them may have, and that table alone rules out all ill-formed sequences.
Reading stops at the first sequence that is not a character and says which bytes it is made of.
-/

namespace Stratagem.Text.Utf8

/-- What is wrong with a sequence of bytes. -/
inductive Defect where
  | start
  | continuation
  | truncated
  deriving DecidableEq, Repr

/-- The wording of a defect. -/
def Defect.text : Defect → String
  | .start => "invalid start byte"
  | .continuation => "invalid continuation byte"
  | .truncated => "unexpected end of data"

/-- The first bytes that are no character: where they start, what they are, what is wrong. -/
structure Malformed where
  position : Nat
  bytes : List UInt8
  defect : Defect
  deriving DecidableEq, Repr

/-- The report on malformed bytes. A single byte is shown, several are given by their positions. -/
def Malformed.message (m : Malformed) : String :=
  "'utf-8' codec can't decode " ++
    (match m.bytes with
      | [byte] => "byte 0x" ++ String.ofList (hexDigits 2 byte.toNat) ++ " in position " ++
          Decimal.natText m.position
      | bytes => "bytes in position " ++ Decimal.natText m.position ++ "-" ++
          Decimal.natText (m.position + bytes.length - 1)) ++
    ": " ++ m.defect.text

/-- What a first byte announces: the bits it contributes, the number of continuation bytes, and the
least and greatest value of the first of them. -/
structure Lead where
  bits : Nat
  count : Nat
  least : Nat
  greatest : Nat

/-- The announcement of a first byte, and `none` for a byte that starts no character. -/
def lead? (byte : UInt8) : Option Lead :=
  let b := byte.toNat
  if b < 0x80 then some ⟨b, 0, 0x80, 0xBF⟩
  else if b < 0xC2 then none
  else if b < 0xE0 then some ⟨b - 0xC0, 1, 0x80, 0xBF⟩
  else if b < 0xF0 then
    some ⟨b - 0xE0, 2, if b = 0xE0 then 0xA0 else 0x80, if b = 0xED then 0x9F else 0xBF⟩
  else if b < 0xF5 then
    some ⟨b - 0xF0, 3, if b = 0xF0 then 0x90 else 0x80, if b = 0xF4 then 0x8F else 0xBF⟩
  else none

/-- The longest run of at most `count` continuation bytes, the first of them between `least` and
`greatest`. -/
def continuations : (count least greatest : Nat) → List UInt8 → List UInt8
  | 0, _, _, _ => []
  | _, _, _, [] => []
  | count + 1, least, greatest, byte :: rest =>
    if least ≤ byte.toNat ∧ byte.toNat ≤ greatest then
      byte :: continuations count 0x80 0xBF rest
    else []

/-- The code point with the leading bits `bits` and six more bits from each continuation byte. -/
def codePoint (bits : Nat) (bytes : List UInt8) : Nat :=
  bytes.foldl (fun acc byte => acc * 64 + (byte.toNat - 0x80)) bits

/-- The characters of `bytes`, which start at `position` of the file. -/
def decodeFrom (position : Nat) : List UInt8 → Except Malformed (List Char)
  | [] => .ok []
  | byte :: rest =>
    match lead? byte with
    | none => .error ⟨position, [byte], .start⟩
    | some lead =>
      let more := continuations lead.count lead.least lead.greatest rest
      if more.length = lead.count then
        -- a full sequence within the bounds of its first byte is a code point
        (decodeFrom (position + 1 + more.length) (rest.drop more.length)).map
          (Char.ofNat (codePoint lead.bits more) :: ·)
      -- only where the file ends in the middle could more bytes have completed it
      else if more.length = rest.length then .error ⟨position, byte :: more, .truncated⟩
      else .error ⟨position, byte :: more, .continuation⟩
termination_by bytes => bytes.length
decreasing_by simp only [List.length_drop, List.length_cons]; omega

/-- The text that the bytes of a file spell. -/
def decode (bytes : List UInt8) : Except Malformed String :=
  (decodeFrom 0 bytes).map String.ofList

/-- The bytes of a text. -/
def encode (text : String) : List UInt8 := text.toList.flatMap String.utf8EncodeChar

end Stratagem.Text.Utf8
