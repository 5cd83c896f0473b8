import Stratagem.Diagnostic
import Stratagem.Text.Cursor
import Stratagem.Text.Digit
import Stratagem.Text.Letter

/-!
# Scanning

Scanning turns a text into tokens. Each token is the longest one that starts where the gap before it
ends, and the first character that starts no token, or the first number that does not fit into
64 bits, ends the scan with a diagnostic.

The operations work on a cursor and return the cursor they reached also when they fail. The loop of
`tokens` ends because every token but the last is made of at least one character
(`nextToken_shorter`).
-/

namespace Stratagem

open Text

/-- The greatest number that a program may hold. -/
def maxNumber : Nat := Nat.pow 2 63 - 1

/-- The number of digits of `maxNumber`. -/
def maxNumberWidth : Nat := 19

/-- The value of a run of digits, if it is at most `maxNumber`. Leading zeros are dropped and a
longer run than `maxNumberWidth` is refused before its value is computed. -/
def boundedValue? (digits : List Nat) : Option Nat :=
  let significant := digits.dropWhile (· = 0)
  if maxNumberWidth < significant.length then none
  else
    let value := Decimal.value significant
    if maxNumber < value then none else some value

namespace Text.Cursor

/-- A token that starts at the cursor. -/
def token (c : Cursor) (kind : Token.Kind) (lexeme : List Char) (value : Option Int) : Token :=
  ⟨kind, String.ofList lexeme, value, c.pos, c.line, c.column⟩

/-- A scanning problem whose spelling starts at the cursor. -/
def problem (c : Cursor) (cause : Diagnostic.Cause) (lexeme : List Char) : Diagnostic :=
  ⟨.scanning, cause, String.ofList lexeme, c.pos, c.line, c.column⟩

/-- Reads the longest run of digits as a number. An empty run has the value zero. -/
def number (c : Cursor) : Except Diagnostic Token × Cursor :=
  let run := c.rest.takeWhile isDigit
  let result :=
    match boundedValue? (run.map digitValue) with
    | some value => .ok (c.token .number run (some value))
    | none => .error (c.problem .numberOutOfRange run)
  (result, c.advanceBy run.length)

/-- Whether a character continues a word. -/
def continuesWord (c : Char) : Bool := isLetter c || isDigit c

/-- The characters of the word that starts with the first character, whatever that is. -/
def wordRun : List Char → List Char
  | [] => []
  | c :: rest => c :: rest.takeWhile continuesWord

/-- The word at the cursor, a keyword or a name, and the cursor past it. -/
def wordHere (c : Cursor) : Token × Cursor :=
  let run := wordRun c.rest
  (c.token (Token.Kind.ofWord (String.ofList run)) run none, c.advanceBy run.length)

/-- Reads a word. At the end of the text there is none, and the cursor moves on all the same. -/
def word (c : Cursor) : Option Token × Cursor :=
  if c.rest.isEmpty then (none, c.advance) else (some c.wordHere.1, c.wordHere.2)

/-- Reads the token at the cursor, which is not in a gap. At the end of the text it is the end
marker. -/
def tokenHere (c : Cursor) : Except Diagnostic Token × Cursor :=
  match c.rest with
  | [] => (.ok (c.token .eof [] none), c)
  | ch :: _ =>
    -- no character is both a digit and a letter, and no symbol is either
    if isDigit ch then c.number
    else if isLetter ch then (.ok c.wordHere.1, c.wordHere.2)
    else
      match Token.Kind.ofSymbol? ch with
      | some kind => (.ok (c.token kind [ch] none), c.advance)
      | none => (.error (c.problem (.unexpectedCharacter ch) [ch]), c)

/-- Skips the gap and reads the next token. -/
def nextToken (c : Cursor) : Except Diagnostic Token × Cursor := c.skipGap.tokenHere

theorem skipGap_rest_le (c : Cursor) : c.skipGap.rest.length ≤ c.rest.length := by
  simp [skipGap]

/-- A token other than the end marker is made of at least one character. -/
theorem tokenHere_shorter {c c' : Cursor} {t : Token} (h : c.tokenHere = (.ok t, c'))
    (ht : t.kind ≠ .eof) : c'.rest.length < c.rest.length := by
  unfold tokenHere at h
  split at h
  · simp only [Prod.mk.injEq, Except.ok.injEq] at h
    exact absurd (by rw [← h.1]; rfl) ht
  · next ch rest hrest =>
    have hlen : 0 < c.rest.length := by simp [hrest]
    split at h
    · next hd =>
      simp only [number, Prod.mk.injEq] at h
      have hrun : 0 < (c.rest.takeWhile isDigit).length := by simp [hrest, hd]
      rw [← h.2, advanceBy_rest, List.length_drop]
      omega
    · split at h
      · simp only [wordHere, Prod.mk.injEq] at h
        have hrun : 0 < (wordRun c.rest).length := by simp [hrest, wordRun]
        rw [← h.2, advanceBy_rest, List.length_drop]
        omega
      · split at h
        · simp only [Prod.mk.injEq] at h
          rw [← h.2, advance_rest, List.length_drop]
          omega
        · simp at h

theorem nextToken_shorter {c c' : Cursor} {t : Token} (h : c.nextToken = (.ok t, c'))
    (ht : t.kind ≠ .eof) : c'.rest.length < c.rest.length :=
  Nat.lt_of_lt_of_le (tokenHere_shorter h ht) (skipGap_rest_le c)

/-- Reads all tokens up to and including the end marker. -/
def tokens (c : Cursor) : Except Diagnostic (List Token) × Cursor :=
  match h : c.nextToken with
  | (.error d, c') => (.error d, c')
  | (.ok t, c') =>
    if ht : t.kind = .eof then (.ok [t], c')
    else
      have := nextToken_shorter h ht
      let (rest, c'') := tokens c'
      (rest.map (t :: ·), c'')
termination_by c.rest.length

end Text.Cursor

/-- The tokens of a text, ending with the end marker, or the first problem. -/
def scan (text : String) : Except Diagnostic (List Token) := (Cursor.start text.toList).tokens.1

end Stratagem
