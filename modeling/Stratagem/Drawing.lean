import Stratagem.Files.Store
import Stratagem.Graph.Dot
import Stratagem.Text.Lower
import Stratagem.Text.Utf8

/-!
# Drawings

A drawing of a program is made in three steps: the graph is saved as text at the given path, an
external layout tool turns it into a file of the wanted format beside it, and the text is removed.
When the tool is missing or fails, the text stays, and a second copy of it is written with the
extension `.dot`.
-/

namespace Stratagem

/-- The external layout tool: not there, failing with a status and a complaint, or working. What it
writes depends on its arguments. -/
inductive LayoutTool where
  | missing
  | failing (status : Nat) (complaint : String)
  | working (output : List String → String)

namespace Drawing

/-- The formats that can be asked for, in alphabetic order. -/
def formats : List String := [
    "bmp", "canon", "cgimage", "cmap", "cmapx", "cmapx_np", "dot", "dot_json", "eps", "exr", "fig",
    "gd", "gd2", "gif", "gtk", "gv", "ico", "imap", "imap_np", "ismap", "jp2", "jpe", "jpeg", "jpg",
    "json", "json0", "pct", "pdf", "pic", "pict", "plain", "plain-ext", "png", "pov", "ps", "ps2",
    "psd", "sgi", "svg", "svg_inline", "svgz", "tga", "tif", "tiff", "tk", "vml", "vmlz", "vrml",
    "wbmp", "webp", "x11", "xdot", "xdot1.2", "xdot1.4", "xdot_json", "xlib"]

/-- Why there is no drawing at all. -/
inductive Fault where
  | render (fault : Node.RenderFault)
  | files (fault : Files.Fault)
  | unknownFormat (format : String)
  /-- What is given as the format is no text. -/
  | noFormat (sort : String)
  /-- What is given as the path is no text. -/
  | noPath (sort : String)
  deriving Repr

/-- The report on a drawing that cannot be made. -/
def Fault.message : Fault → String
  | .render fault => fault.message
  | .files fault => fault.message
  | .unknownFormat format =>
    "unknown format: " ++ Text.quoted format ++ " (must be one of [" ++
      ", ".intercalate (formats.map Text.quoted) ++ "])"
  | .noFormat sort => "'" ++ sort ++ "' object has no attribute 'lower'"
  | .noPath sort =>
    "join() argument must be str, bytes, or os.PathLike object, not '" ++ sort ++ "'"

/-- Why the layout tool drew nothing. -/
inductive ToolFault where
  | missing
  | failed (arguments : List String) (status : Nat) (complaint : String)
  deriving DecidableEq, Repr

/-- The report on a layout tool that drew nothing. -/
def ToolFault.message : ToolFault → String
  | .missing =>
    "failed to execute PosixPath('dot'), make sure the Graphviz executables " ++
      "are on your systems' PATH"
  | .failed arguments status complaint =>
    "Command '[" ++ ", ".intercalate ("PosixPath('dot')" :: arguments.map Text.quoted) ++
      "]' returned non-zero exit status " ++ Decimal.natText status ++ ". [stderr: b" ++
      Text.quoted complaint ++ "]"

/-- The arguments for the layout tool, which runs in the folder of the file that is named last. -/
def toolArguments (format name : String) : List String := ["-Kdot", "-T" ++ format, "-O", name]

/-- The path of the drawing of the graph saved at `path`. -/
def drawnPath (path format : String) : String := Files.tidy path ++ "." ++ format

/-- The path of the copy of the graph that is kept when the tool draws nothing. -/
def copyPath (path : String) : String := path ++ ".dot"

/-- What became of a drawing: the line about it, the complaint of the layout tool, and the files. -/
structure Outcome where
  fault : Option Fault
  report : String
  complaint : String
  store : Files.Store

/-- Makes a folder, if a path is given for it, and then writes a file. -/
def writeIn (store : Files.Store) (folder : List Char) (path text : String) : Files.Attempt :=
  let made := if folder.isEmpty then ⟨store, none⟩ else store.makeFolders folder
  match made.fault with
  | none => made.store.attempt (made.store.write path (Text.Utf8.encode text))
  | some _ => made

/-- Saves the text of a graph at a path, making the folders that lead to it. -/
def save (store : Files.Store) (path text : String) : Files.Attempt :=
  writeIn store (Files.parentPath path.toList) path text

/-- Lets the layout tool draw the graph saved at a path, which is removed if that succeeds. -/
def layOut (tool : LayoutTool) (store : Files.Store) (path format : String) :
    Except Files.Fault (Except ToolFault Files.Store) :=
  let arguments := toolArguments format ((Files.steps path).getLastD "")
  match tool with
  | .missing => .ok (.error .missing)
  | .failing status complaint => .ok (.error (.failed arguments status complaint))
  | .working output => do
    let store ← store.writeBeside path ("." ++ format) (Text.Utf8.encode (output arguments))
    let store ← store.remove path
    return .ok store

/-- Keeps a copy of the text of a graph. -/
def keepCopy (store : Files.Store) (path text : String) : Files.Attempt :=
  let folder := Files.parentPath path.toList
  writeIn store (if folder.isEmpty then ['.'] else folder) (copyPath path) text

/-- The complaint of a layout tool that drew nothing. -/
def ToolFault.complaint : ToolFault → String
  | .missing => ""
  | .failed _ _ complaint => complaint

/-- Draws a graph, given as text, at a path. -/
def drawText (tool : LayoutTool) (store : Files.Store) (path format text : String) : Outcome :=
  let saved := save store path text
  match saved.fault with
  | some fault => ⟨some (.files fault), "", "", saved.store⟩
  | none =>
    match layOut tool saved.store path format with
    | .error fault => ⟨some (.files fault), "", "", saved.store⟩
    | .ok (.ok drawn) =>
      ⟨none, "Wrote AST visualization to " ++ drawnPath path format ++ "\n", "", drawn⟩
    | .ok (.error fault) =>
      let kept := keepCopy saved.store path text
      match kept.fault with
      | some failure => ⟨some (.files failure), "", fault.complaint, kept.store⟩
      | none =>
        ⟨none, "Wrote DOT to " ++ copyPath path ++ " (render failed: " ++ fault.message ++ ")\n",
          fault.complaint, kept.store⟩

/-- Draws a program at a path. The path and the format have to be texts, and the case of the letters
of the format does not count. -/
def draw (tool : LayoutTool) (store : Files.Store) (path format : Datum) (program : Program) :
    Outcome :=
  match program.dot, format with
  | .error fault, _ => ⟨some (.render fault), "", "", store⟩
  | .ok text, .text name =>
    let name := String.ofList (Text.lower name.toList)
    if name ∉ formats then ⟨some (.unknownFormat name), "", "", store⟩
    else
      match path with
      | .text path => drawText tool store path name text
      | d => ⟨some (.noPath d.sort), "", "", store⟩
  | .ok _, d => ⟨some (.noFormat d.sort), "", "", store⟩

end Drawing

end Stratagem
