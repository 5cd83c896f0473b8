import Stratagem.CommandLine.Flag
import Stratagem.Report

/-!
# Requests

The arguments of a command line make one request: what to do, with which options, or a complaint
about the first argument that does not fit. All arguments are read before any of them counts, so an
ambiguous one is reported first; after that they are taken from left to right, and asking for help
ends the reading there and then. Arguments that nothing takes are reported at the end, together.
-/

namespace Stratagem.CommandLine

/-- What the arguments have set so far. -/
structure Request where
  file : Option String := none
  interactive : Bool := false
  options : Report.Options := {}
  /-- The settings that were given. -/
  given : List Setting := []
  /-- The arguments that nothing took. -/
  extras : List String := []
  deriving Repr

/-- Where the reading of a command line can end early. -/
inductive Stop where
  | help
  | complaint (c : Complaint)
  deriving Repr

/-- The value that a flag keeps: the mark `--` counts as none. -/
def keptValue (value : String) : Option String := if value = "--" then none else some value

namespace Request

/-- The request with a setting that has no value. -/
def switch (r : Request) : Setting → Request
  | .interactive => { r with interactive := true }
  | .printTokens => { r with options := { r.options with tokens := true } }
  | .noOutline => { r with options := { r.options with outline := false } }
  | .printSource => { r with options := { r.options with source := true } }
  | .printJson => { r with options := { r.options with json := true } }
  | _ => r

/-- The request with a setting that has a value. -/
def assign (r : Request) (value : Option String) : Setting → Request
  | .file => { r with file := value }
  | .drawing => { r with options := { r.options with drawing := value.elim (.list []) .text } }
  | .format => { r with options := { r.options with format := value.elim (.list []) .text } }
  | _ => r

/-- Notes that a setting was given, which must not exclude an earlier one. -/
def give (r : Request) (s : Setting) : Except Stop Request :=
  match s.excludes.find? (· ∈ r.given) with
  | some other => .error (.complaint (.notAllowedWith s other))
  | none => .ok { r with given := s :: r.given }

/-- Takes a flag without a value. -/
def takeSwitch (r : Request) (s : Setting) : Except Stop Request := do
  let r ← r.give s
  if s = .help then throw .help
  return r.switch s

/-- Takes a flag with a value, which must be one of the choices if there are any. -/
def takeValue (r : Request) (s : Setting) (value : String) : Except Stop Request := do
  match keptValue value, s.choices? with
  | some v, some choices =>
    if v ∉ choices then throw (.complaint (.invalidChoice s v choices))
  | _, _ => pure ()
  let r ← r.give s
  return r.assign (keptValue value) s

end Request

/-- A flag to be taken and, if it takes one, its value. -/
abbrev Taking := Setting × Option String

/-- The flags in an argument: the first one, and those that its attached text makes of it. The last
one may still lack its value, and then its setting is given apart. -/
def unfold (s : Setting) (short : Bool) : (attached : List Char) → Except Complaint
    (List Taking × Option Setting)
  | [] =>
    if s.takesValue then .ok ([(s, some "")], none) else .error (.valueUnwanted s "")
  | c :: rest =>
    if s.takesValue then .ok ([(s, some (String.ofList (c :: rest)))], none)
    else if short then
      -- each further character is a short flag of its own, as long as there are such
      match Setting.ofSpelling? (String.ofList ['-', c]) with
      | none => .error (.valueUnwanted s (String.ofList (c :: rest)))
      | some inner =>
        if rest.isEmpty then
          .ok (if inner.takesValue then ([(s, none)], some inner)
            else ([(s, none), (inner, none)], none))
        else (unfold inner true rest).map fun found => ((s, none) :: found.1, found.2)
    else .error (.valueUnwanted s (String.ofList (c :: rest)))

/-- Takes flags in order. -/
def takeAll (r : Request) : List Taking → Except Stop Request
  | [] => .ok r
  | (s, none) :: rest => do takeAll (← r.takeSwitch s) rest
  | (s, some value) :: rest => do takeAll (← r.takeValue s value) rest

/-- An argument with what it is; arguments behind the mark `--` are marked as such. -/
structure Argument where
  text : String
  word : Word
  /-- Whether a flag can take the argument as its value. -/
  free : Bool
  deriving Repr

/-- Reads the arguments up to the mark `--`; those from there on are taken by nothing. -/
def classify : List String → Except Complaint (List Argument)
  | [] => .ok []
  | text :: rest =>
    -- the mark itself is an argument too, which in the end nothing takes
    if text = "--" then .ok ((text :: rest).map fun t => ⟨t, .plain, false⟩)
    else do
      let word ← Word.read text
      let others ← classify rest
      return ⟨text, word, word = .plain⟩ :: others

/-- The flags in an argument that is one, and the setting that still lacks its value. -/
def takings (s : Setting) (short : Bool) : Option (List Char) → Except Complaint
    (List Taking × Option Setting)
  | some attached => unfold s short attached
  | none => .ok (if s.takesValue then ([], some s) else ([(s, none)], none))

/-- Takes the arguments from left to right. -/
def take (r : Request) : List Argument → Except Stop Request
  | [] => .ok r
  | [⟨text, word, _⟩] =>
    match word with
    | .flag s short attached =>
      match takings s short attached with
      | .error c => .error (.complaint c)
      | .ok (_, some lacking) => .error (.complaint (.valueMissing lacking))
      | .ok (found, none) => takeAll r found
    | _ => .ok { r with extras := r.extras ++ [text] }
  | ⟨text, word, _⟩ :: ⟨value, valueWord, free⟩ :: rest =>
    match word with
    | .flag s short attached =>
      match takings s short attached with
      | .error c => .error (.complaint c)
      | .ok (found, some lacking) =>
        if free then do take (← takeAll r (found ++ [(lacking, some value)])) rest
        else .error (.complaint (.valueMissing lacking))
      | .ok (found, none) => do take (← takeAll r found) (⟨value, valueWord, free⟩ :: rest)
    | _ => take { r with extras := r.extras ++ [text] } (⟨value, valueWord, free⟩ :: rest)

/-- The request that a command line makes. -/
def Request.read (arguments : List String) : Except Stop Request := do
  let arguments ← (classify arguments).mapError .complaint
  let r ← take {} arguments
  if r.extras.isEmpty then return r else throw (.complaint (.unrecognized r.extras))

end Stratagem.CommandLine
