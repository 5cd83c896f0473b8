import Stratagem.Report
import Stratagem.Text.Lower

/-!
# Dialogues

In a dialogue the user types one program per line and gets a report on each. A line is taken without
the blanks at its ends; an empty one is passed over, and one that spells `quit`, `exit` or `q`, with
letters of either case, ends the dialogue, as does the end of the input.
-/

namespace Stratagem.Dialogue

/-- The lines of an input. A line feed ends a line and is not part of it. -/
def inputLines : List Char → List (List Char)
  | [] => []
  | c :: rest =>
    if c = '\n' then [] :: inputLines rest
    else
      match inputLines rest with
      | [] => [[c]]
      | line :: lines => (c :: line) :: lines

/-- What a dialogue opens with. -/
def banner : String :=
  "\nInteractive Strategy Parser (type 'quit' to exit)\n" ++
    String.ofList (List.replicate 80 '=') ++ "\n"

/-- What asks for a line. -/
def prompt : String := "\nEnter program: "

/-- What a dialogue closes with after a line that ends it. -/
def farewell : String := "Goodbye!\n"

/-- What a dialogue closes with at the end of the input. -/
def endNote : String := "\n\nExiting...\n"

/-- The words that end a dialogue. -/
def closingWords : List String := ["quit", "exit", "q"]

/-- Whether a line without its outer blanks ends a dialogue. -/
def isClosing (line : List Char) : Bool :=
  closingWords.contains (String.ofList (Text.lower line))

/-- What follows from a line. -/
inductive Reaction where
  | close
  | pass
  | reply (run : Run Bool)

/-- What follows from a line: the end, nothing, or a report on the program that it holds. There are
no drawings in a dialogue. -/
def react (options : Report.Options) (store : Files.Store) (line : List Char) : Reaction :=
  let text := Text.trim line
  if isClosing text then .close
  else if text.isEmpty then .pass
  else
    .reply (Report.onText { options with drawing := .absent } .missing store (String.ofList text))

/-- The dialogue over the given lines. -/
def exchange (options : Report.Options) (store : Files.Store) : List (List Char) → Run Unit
  | [] => ⟨.ok (), prompt ++ endNote, "", store⟩
  | line :: lines =>
    match react options store line with
    | .close => ⟨.ok (), prompt ++ farewell, "", store⟩
    | .pass => (exchange options store lines).after prompt
    | .reply reply =>
      match reply.result with
      | .ok _ => (exchange options store lines).after (prompt ++ reply.out)
      | .error failure => ⟨.error failure, prompt ++ reply.out, reply.err, reply.store⟩

/-- A whole dialogue. -/
def run (options : Report.Options) (store : Files.Store) (input : String) : Run Unit :=
  (exchange options store (inputLines input.toList)).after banner

end Stratagem.Dialogue
