/-!
# Line ends

Files come with three kinds of line end. On reading, each becomes a line feed.
-/

namespace Stratagem.Text

/-- The text with `\r\n` and lone `\r` replaced by `\n`. -/
def unifyNewlines : List Char → List Char
  | '\r' :: '\n' :: rest => '\n' :: unifyNewlines rest
  | '\r' :: rest => '\n' :: unifyNewlines rest
  | c :: rest => c :: unifyNewlines rest
  | [] => []

end Stratagem.Text
