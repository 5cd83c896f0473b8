import Stratagem.CommandLine.Command

/-!
# The program

The command is carried out on a store that holds the file named on the command line, and what it
wrote and changed is then passed on. No layout tool is run, so a drawing is kept as the text of its
graph. A dialogue answers each line as it is typed.
-/

open Stratagem

/-- What is at a place. What is there and cannot be read is a folder. -/
def load (place : Files.Place) : IO (Option Files.Entry) := do
  try
    return some (.file (← IO.FS.readBinFile place.path).toList)
  catch _ =>
    try
      let _ ← IO.FS.realPath place.path
      return some .folder
    catch _ => return none

/-- What a path leads to and what it comes by. -/
def loadStore (path : String) : IO Files.Store := do
  let mut store : Files.Store := ⟨[]⟩
  for place in (Files.Place.start path.toList).along (Files.pieces path.toList) do
    if let some entry ← load place then store := store.insert place entry
  return store

/-- Writes the files of a store that differ from those of an earlier one, and removes those that are
gone. -/
def passOn (before after : Files.Store) : IO Unit := do
  for (place, entry) in after.entries do
    if before.entry? place ≠ some entry then
      match entry with
      | .folder => IO.FS.createDirAll place.path
      | .file bytes =>
        if 1 < place.names.length then IO.FS.createDirAll place.parent.path
        IO.FS.writeBinFile place.path ⟨bytes.toArray⟩
  for (place, _) in before.entries do
    if (after.entry? place).isNone then IO.FS.removeFile place.path

/-- Answers the lines of the standard input until one of them closes the dialogue. -/
partial def converse (options : Report.Options) (input output : IO.FS.Stream) : IO Unit := do
  output.putStr Dialogue.prompt
  output.flush
  let line ← input.getLine
  if line.isEmpty then output.putStr Dialogue.endNote
  else
    let text := line.toList
    let text := if text.getLast? = some '\n' then text.dropLast else text
    match Dialogue.react options ⟨[]⟩ text with
    | .close => output.putStr Dialogue.farewell
    | .pass => converse options input output
    | .reply run =>
      output.putStr run.out
      converse options input output

/-- Runs the command on the arguments and the standard input. -/
def main (arguments : List String) : IO UInt32 := do
  match CommandLine.Request.read arguments with
  | .ok { interactive := true, options := options, .. } =>
    let output ← IO.getStdout
    output.putStr Dialogue.banner
    converse options (← IO.getStdin) output
    return 0
  | request =>
    let store ← match request with
      | .ok { file := some path, .. } => loadStore path
      | _ => pure ⟨[]⟩
    let run := CommandLine.command arguments "" .missing store
    IO.print run.out
    IO.eprint run.err
    passOn store run.store
    match run.result with
    | .ok (.returned value) => return value.toUInt32
    | .ok (.exited code) => return code.toUInt32
    | .error failure =>
      IO.eprintln failure.message
      return 1
