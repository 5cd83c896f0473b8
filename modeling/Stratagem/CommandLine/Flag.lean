import Stratagem.Text.Digit
import Stratagem.Text.Quoted

/-!
# Flags of the command line

A flag has one or more spellings and may take a value. A long spelling may be shortened as long as
one flag only is meant, a value may be attached after an equals sign, and a short spelling may have
its value, or further short flags, directly behind it.

`Word.read` says what one argument is, on its own: a flag with what is attached to it, something
that looks like a flag but is none, or a plain argument.
-/

namespace Stratagem.CommandLine

/-- What a flag sets. -/
inductive Setting where
  | help
  | file
  | interactive
  | printTokens
  | noOutline
  | printSource
  | printJson
  | drawing
  | format
  deriving DecidableEq, Repr

namespace Setting

/-- All settings, in the order of the usage text. -/
def all : List Setting := [
    .help, .file, .interactive, .printTokens, .noOutline, .printSource, .printJson, .drawing,
    .format]

/-- The spellings of the flag of a setting. -/
def spellings : Setting → List String
  | .help => ["-h", "--help"]
  | .file => ["--file", "-f"]
  | .interactive => ["--interactive", "-i"]
  | .printTokens => ["--print-tokens"]
  | .noOutline => ["--no-ast"]
  | .printSource => ["--surface"]
  | .printJson => ["--json"]
  | .drawing => ["--viz"]
  | .format => ["--viz-format"]

/-- Whether the flag of a setting takes a value. -/
def takesValue : Setting → Bool
  | .file | .drawing | .format => true
  | _ => false

/-- The values that the flag of a setting may have, where not all are allowed. -/
def choices? : Setting → Option (List String)
  | .format => some ["svg", "png", "pdf"]
  | _ => none

/-- A setting in a complaint. -/
def title (s : Setting) : String := "argument " ++ "/".intercalate s.spellings

/-- The settings with which a setting cannot be combined. -/
def excludes : Setting → List Setting
  | .file => [.interactive]
  | .interactive => [.file]
  | _ => []

/-- All spellings with their settings. -/
def table : List (String × Setting) :=
  all.flatMap fun s => s.spellings.map fun spelling => (spelling, s)

/-- The setting of an exact spelling. -/
def ofSpelling? (spelling : String) : Option Setting := table.lookup spelling

end Setting

/-- Why a command line is refused. -/
inductive Complaint where
  | ambiguous (argument : String) (matching : List String)
  | valueMissing (s : Setting)
  | valueUnwanted (s : Setting) (value : String)
  | notAllowedWith (s other : Setting)
  | invalidChoice (s : Setting) (value : String) (choices : List String)
  | unrecognized (arguments : List String)
  deriving DecidableEq, Repr

/-- The wording of a complaint. -/
def Complaint.message : Complaint → String
  | .ambiguous argument matching =>
    "ambiguous option: " ++ argument ++ " could match " ++ ", ".intercalate matching
  | .valueMissing s => s.title ++ ": expected one argument"
  | .valueUnwanted s value => s.title ++ ": ignored explicit argument " ++ Text.quoted value
  | .notAllowedWith s other => s.title ++ ": not allowed with " ++ other.title
  | .invalidChoice s value choices =>
    s.title ++ ": invalid choice: " ++ Text.quoted value ++ " (choose from " ++
      ", ".intercalate (choices.map Text.quoted) ++ ")"
  | .unrecognized arguments => "unrecognized arguments: " ++ " ".intercalate arguments

/-- One argument of a command line. -/
inductive Word where
  /-- A flag, whether its spelling is a short one, and the text attached to it. -/
  | flag (s : Setting) (short : Bool) (attached : Option (List Char))
  /-- Something that looks like a flag but is none. -/
  | stray
  /-- An argument that is no flag. -/
  | plain
  deriving DecidableEq, Repr

namespace Word

/-- The parts of a text before and after the first equals sign. -/
def splitEquals (text : List Char) : Option (List Char × List Char) :=
  match text.dropWhile (· ≠ '=') with
  | [] => none
  | _ :: value => some (text.takeWhile (· ≠ '='), value)

/-- Whether a text is a minus sign and a decimal number, with or without a fraction. A line feed may
stand at its end. -/
def isNegativeNumber (text : List Char) : Bool :=
  match text with
  | '-' :: rest =>
    let body := if rest.getLast? = some '\n' then rest.dropLast else rest
    let whole := body.takeWhile Text.isDigit
    match body.dropWhile Text.isDigit with
    | [] => !whole.isEmpty
    | '.' :: fraction => !fraction.isEmpty && fraction.all Text.isDigit
    | _ => false
  | _ => false

/-- Whether a spelling is a short one: one minus sign. -/
def isShort (spelling : List Char) : Bool :=
  match spelling with
  | '-' :: '-' :: _ => false
  | _ => true

/-- The flags that a shortened or extended spelling can mean, with the full spellings. -/
def candidates (text : List Char) : List (String × Word) :=
  match text with
  | '-' :: '-' :: _ =>
    let (stem, value) :=
      match splitEquals text with
      | some (stem, value) => (stem, some value)
      | none => (text, none)
    (Setting.table.filter fun entry => stem.isPrefixOf entry.1.toList).map fun entry =>
      (entry.1, .flag entry.2 (isShort entry.1.toList) value)
  | '-' :: c :: value =>
    Setting.table.filterMap fun entry =>
      if entry.1.toList = ['-', c] then some (entry.1, .flag entry.2 true (some value))
      else if text.isPrefixOf entry.1.toList then
        some (entry.1, .flag entry.2 (isShort entry.1.toList) none)
      else none
  | _ => []

/-- What an argument that starts with a minus sign is when it is no exact spelling. -/
def readInexact (argument : String) : Except Complaint Word :=
  match candidates argument.toList with
  | [(_, word)] => .ok word
  | [] =>
    if isNegativeNumber argument.toList ∨ ' ' ∈ argument.toList then .ok .plain else .ok .stray
  | several => .error (.ambiguous argument (several.map (·.1)))

/-- What an argument is. -/
def read (argument : String) : Except Complaint Word :=
  match argument.toList with
  | '-' :: _ :: _ =>
    match Setting.ofSpelling? argument with
    | some s => .ok (.flag s (isShort argument.toList) none)
    | none =>
      match splitEquals argument.toList with
      | some (stem, value) =>
        match Setting.ofSpelling? (String.ofList stem) with
        | some s => .ok (.flag s (isShort stem) (some value))
        | none => readInexact argument
      | none => readInexact argument
  | _ => .ok .plain

end Word

end Stratagem.CommandLine
