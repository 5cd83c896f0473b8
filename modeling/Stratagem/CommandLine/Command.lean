import Stratagem.CommandLine.Request
import Stratagem.Dialogue
import Stratagem.Text.Newline

/-!
# The command

The command reports on the program in a file or holds a dialogue. With neither it shows its help.
A file that cannot be read makes it return one, as does a text that is no program.
-/

namespace Stratagem.CommandLine

/-- How the command ends: with a value, or at once with an exit code. -/
inductive Ending where
  | returned (value : Nat)
  | exited (code : Nat)
  deriving DecidableEq, Repr

/-- The usage text. -/
def usage : String :=
  "usage: strategy-parse [-h] [--file FILE | --interactive] [--print-tokens]\n" ++
  "                      [--no-ast] [--surface] [--json] [--viz VIZ_PATH]\n" ++
  "                      [--viz-format \x7bsvg,png,pdf\x7d]\n"

/-- The help text. -/
def help : String :=
  usage ++
  "\nParse a strategy program from a file or interactively from stdin\n" ++
  "\noptions:\n" ++
  "  -h, --help            show this help message and exit\n" ++
  "  --file FILE, -f FILE  Path to source file to process\n" ++
  "  --interactive, -i     Start interactive REPL mode\n" ++
  "  --print-tokens        Print tokens\n" ++
  "  --no-ast              Do not print AST\n" ++
  "  --surface             Print the program re-rendered as source text\n" ++
  "  --json                Print the AST as JSON\n" ++
  "  --viz VIZ_PATH        Write a Graphviz rendering of the AST to this path (no\n" ++
  "                        extension)\n" ++
  "  --viz-format \x7bsvg,png,pdf\x7d\n" ++
  "                        Output format for --viz\n"

/-- The text of a file as a program is read from it. -/
def fileText (bytes : List UInt8) : Except Text.Utf8.Malformed String :=
  (Text.Utf8.decode bytes).map fun text => String.ofList (Text.unifyNewlines text.toList)

/-- The value returned after a report: zero for a program, one for any other text. -/
def verdict (isProgram : Bool) : Nat := if isProgram then 0 else 1

/-- Reports on the program in a file. -/
def reportFile (options : Report.Options) (tool : LayoutTool) (store : Files.Store)
    (path : String) : Run Ending :=
  match store.read path with
  | .error (.refused cause path) =>
    ⟨.ok (.returned 1),
      "Failed to read file " ++ path ++ ": " ++ (Files.Fault.refused cause path).message ++ "\n",
      "", store⟩
  | .error .nullInPath => ⟨.error (.files .nullInPath), "", "", store⟩
  | .ok bytes =>
    match fileText bytes with
    | .error m => ⟨.error (.malformed m), "", "", store⟩
    | .ok text => (Report.onText options tool store text).map (.returned <| verdict ·)

/-- Does what a request asks for. -/
def carryOut (request : Request) (tool : LayoutTool) (store : Files.Store) (input : String) :
    Run Ending :=
  if request.interactive then (Dialogue.run request.options store input).map fun _ => .returned 0
  else
    match request.file with
    | none | some "" => ⟨.ok (.returned 0), help, "", store⟩
    | some path => reportFile request.options tool store path

/-- The command with its arguments and its input. -/
def command (arguments : List String) (input : String) (tool : LayoutTool) (store : Files.Store) :
    Run Ending :=
  match Request.read arguments with
  | .ok request => carryOut request tool store input
  | .error .help => ⟨.ok (.exited 0), help, "", store⟩
  | .error (.complaint c) =>
    ⟨.ok (.exited 2), "", usage ++ "strategy-parse: error: " ++ c.message ++ "\n", store⟩

end Stratagem.CommandLine
