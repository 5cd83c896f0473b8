import Stratagem.Files.Place
import Stratagem.Text.Quoted
import Stratagem.Text.Decimal

/-!
# A store of files

Programs are read from files, and drawings of them are written to files. A store maps places to
folders and files. The working folder and the folders above it are always there, and nothing else is
known to be in those. A path is followed piece by piece, and every operation either gives what was
asked for or says which path was refused and why.
-/

namespace Stratagem.Files

/-- What is at a place. -/
inductive Entry where
  | folder
  | file (bytes : List UInt8)
  deriving DecidableEq, Repr

/-- Folders and files by their places. -/
structure Store where
  entries : List (Place × Entry)
  deriving Repr

/-- Why a path is refused. -/
inductive Cause where
  | notFound
  | alreadyThere
  | notFolder
  | isFolder
  | nameTooLong
  deriving DecidableEq, Repr

/-- The number of a cause. -/
def Cause.number : Cause → Nat
  | .notFound => 2
  | .alreadyThere => 17
  | .notFolder => 20
  | .isFolder => 21
  | .nameTooLong => 36

/-- The wording of a cause. -/
def Cause.text : Cause → String
  | .notFound => "No such file or directory"
  | .alreadyThere => "File exists"
  | .notFolder => "Not a directory"
  | .isFolder => "Is a directory"
  | .nameTooLong => "File name too long"

/-- A refused path. A path that holds the null character is none. -/
inductive Fault where
  | refused (cause : Cause) (path : String)
  | nullInPath
  deriving DecidableEq, Repr

/-- The report on a refused path. -/
def Fault.message : Fault → String
  | .refused cause path =>
    "[Errno " ++ Decimal.natText cause.number ++ "] " ++ cause.text ++ ": " ++ Text.quoted path
  | .nullInPath => "embedded null byte"

/-- What is left after an attempt to change a store: the store, and why the attempt failed. -/
structure Attempt where
  store : Store
  fault : Option Fault

namespace Store

/-- What is at a place. -/
def entry? (store : Store) (place : Place) : Option Entry :=
  if place.names.isEmpty then some .folder
  else store.entries.lookup place

/-- The store without what was at a place. -/
def erase (store : Store) (place : Place) : Store :=
  ⟨store.entries.filter fun entry => entry.1 ≠ place⟩

/-- The store with a new entry at a place. -/
def insert (store : Store) (place : Place) (entry : Entry) : Store :=
  ⟨(place, entry) :: (store.erase place).entries⟩

/-- The greatest length of a name in bytes. -/
def maxNameLength : Nat := 255

/-- Follows one piece of a path from a place, which has to be a folder. -/
def follow (store : Store) (place : Place) (piece : List Char) : Except Cause Place :=
  if store.entry? place ≠ some .folder then .error .notFolder
  else if maxNameLength < (String.ofList piece).utf8ByteSize then .error .nameTooLong
  else if (store.entry? (place.step piece)).isNone then .error .notFound
  else .ok (place.step piece)

/-- Follows the pieces of a path from a place. -/
def followAll (store : Store) (place : Place) : List (List Char) → Except Cause Place
  | [] => .ok place
  | piece :: rest => do
    let place ← store.follow place piece
    store.followAll place rest

/-- The place of a path. -/
def locate (store : Store) (path : List Char) : Except Cause Place :=
  if isOverlong path then .error .nameTooLong
  else if path = [] then .error .notFound
  else store.followAll (Place.start path) (pieces path)

/-- Whether something is at a path. -/
def contains (store : Store) (path : List Char) : Bool := (store.locate path).isOk

/-- Whether a folder is at a path. -/
def isFolder (store : Store) (path : List Char) : Bool :=
  match store.locate path with
  | .ok place => store.entry? place = some .folder
  | .error _ => false

/-- The place for a new name at the end of a path. A dot or an empty last piece names no new place
and is refused as `dots`. -/
def newPlace (store : Store) (path : List Char) (dots : Cause) : Except Cause Place := do
  if isOverlong path then throw .nameTooLong
  let all := pieces path
  let place ← store.followAll (Place.start path) all.dropLast
  let piece := all.getLastD []
  if store.entry? place ≠ some .folder then throw .notFolder
  if piece = [] ∨ piece = ['.'] ∨ piece = ['.', '.'] then throw dots
  if maxNameLength < (String.ofList piece).utf8ByteSize then throw .nameTooLong
  return place.child (String.ofList piece)

/-- Turns a cause into a report on a path, after checking the path for the null character. -/
def onPath {α : Type} (path : String) (result : Except Cause α) : Except Fault α :=
  if Char.ofNat 0 ∈ path.toList then .error .nullInPath
  else result.mapError (.refused · path)

/-- The bytes of the file at a path. -/
def read (store : Store) (path : String) : Except Fault (List UInt8) := onPath path do
  let place ← store.locate path.toList
  match store.entry? place with
  | some (.file bytes) => return bytes
  | _ => throw .isFolder

/-- The store after a file has been written at a place that is no folder. -/
def writeAt (store : Store) (place : Place) (bytes : List UInt8) : Except Cause Store :=
  if store.entry? place = some .folder then .error .isFolder
  else .ok (store.insert place (.file bytes))

/-- The store after a file has been written at a path. -/
def write (store : Store) (path : String) (bytes : List UInt8) : Except Fault Store :=
  onPath path do
    let place ← store.newPlace path.toList .isFolder
    store.writeAt place bytes

/-- The store after a file has been written beside the one at a path, under its name with an
ending. -/
def writeBeside (store : Store) (path ending : String) (bytes : List UInt8) : Except Fault Store :=
  onPath path do
    let place ← store.newPlace path.toList .isFolder
    let beside := place.extended ending
    if maxNameLength < (beside.names.getLastD "").utf8ByteSize then throw .nameTooLong
    store.writeAt beside bytes

/-- The store after the file at a path has been removed. -/
def remove (store : Store) (path : String) : Except Fault Store := onPath path do
  let place ← store.locate path.toList
  if store.entry? place = some .folder then throw .isFolder
  return store.erase place

/-- The store after a folder has been made at a path. -/
def makeFolder (store : Store) (path : List Char) : Except Fault Store :=
  onPath (String.ofList path) do
    let bare := (path.reverse.dropWhile (· = '/')).reverse
    if isOverlong path then throw .nameTooLong
    if path = [] then throw .notFound
    if bare = [] then throw .alreadyThere
    let place ← store.newPlace bare .alreadyThere
    if (store.entry? place).isSome then throw .alreadyThere
    return store.insert place .folder

/-- What is left after an attempt, which changes nothing if it fails. -/
def attempt (store : Store) : Except Fault Store → Attempt
  | .ok changed => ⟨changed, none⟩
  | .error fault => ⟨store, some fault⟩

/-- Makes a folder at a path, which is no fault if it is there already. -/
def ensureFolder (store : Store) (path : List Char) : Attempt :=
  match store.makeFolder path with
  | .ok changed => ⟨changed, none⟩
  | .error fault => ⟨store, if store.isFolder path then none else some fault⟩

/-- The last named piece of a path and the path before it. Slashes at the end are passed over. -/
def lastStep (path : List Char) : List Char × List Char :=
  if lastPiece path = [] then (parentPath (parentPath path), lastPiece (parentPath path))
  else (parentPath path, lastPiece path)

theorem lastStep_lt {path : List Char} (h : (lastStep path).2 ≠ []) :
    (lastStep path).1.length < path.length := by
  have hpos : 0 < (lastStep path).2.length := List.length_pos_iff.2 h
  have h₁ := length_parent_add_last path
  have h₂ := length_parent_add_last (parentPath path)
  unfold lastStep at *
  split at hpos
  · next hlast => rw [if_pos hlast]; simp only at *; omega
  · next hlast => rw [if_neg hlast]; simp only at *; omega

/-- Makes a folder at a path together with the folders that lead to it. Those that have been made
stay also when a later one is refused. -/
def makeFolders (store : Store) (path : List Char) : Attempt :=
  if h : (lastStep path).2 ≠ [] ∧ (lastStep path).1 ≠ [] ∧ ¬ store.contains (lastStep path).1 then
    have := lastStep_lt h.1
    let outer := makeFolders store (lastStep path).1
    match outer.fault with
    | none | some (.refused .alreadyThere _) =>
      -- a dot names what has just been made or found in the way, and there is nothing left to do;
      -- otherwise the last step finds out whether that is a folder
      if (lastStep path).2 = ['.'] then ⟨outer.store, none⟩ else outer.store.ensureFolder path
    | some _ => outer
  else store.ensureFolder path
termination_by path.length

end Store

end Stratagem.Files
