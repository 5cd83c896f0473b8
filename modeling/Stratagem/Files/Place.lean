import Stratagem.Files.Path

/-!
# Places

A path leads somewhere: from the root of all folders if it starts with a slash, and from the working
folder otherwise. Two dots lead one folder up. How deep the working folder is and what the folders
above it are called is not known, so a place is counted from one of these folders.
-/

namespace Stratagem.Files

/-- A folder to count from: the root, or the one so many levels above the working folder. -/
inductive Origin where
  | root
  | above (levels : Nat)
  deriving DecidableEq, Repr

/-- A place: the names that lead to it from a folder. -/
structure Place where
  origin : Origin
  names : List String
  deriving DecidableEq, Repr

namespace Place

/-- The working folder. -/
def working : Place := ⟨.above 0, []⟩

/-- The place of a name in a folder. -/
def child (place : Place) (name : String) : Place := ⟨place.origin, place.names ++ [name]⟩

/-- The folder that a place is in. Above the root there is only the root. -/
def parent (place : Place) : Place :=
  match place.names, place.origin with
  | [], .root => place
  | [], .above levels => ⟨.above (levels + 1), []⟩
  | names, origin => ⟨origin, names.dropLast⟩

/-- The place beside a place under the same name with an ending. -/
def extended (place : Place) (ending : String) : Place :=
  ⟨place.origin, place.names.dropLast ++ [place.names.getLastD "" ++ ending]⟩

/-- Where a piece of a path leads from a place. -/
def step (place : Place) (piece : List Char) : Place :=
  if piece = [] ∨ piece = ['.'] then place
  else if piece = ['.', '.'] then place.parent
  else place.child (String.ofList piece)

/-- Where a path starts. -/
def start (path : List Char) : Place :=
  if path.head? = some '/' then ⟨.root, []⟩ else working

/-- The places that pieces of a path lead to, one after the other. -/
def along (place : Place) : List (List Char) → List Place
  | [] => []
  | piece :: rest => place.step piece :: along (place.step piece) rest

/-- A path that leads to a place. -/
def path (place : Place) : String :=
  match place.origin with
  | .root => "/" ++ "/".intercalate place.names
  | .above levels => "/".intercalate (List.replicate levels ".." ++ place.names)

end Place

end Stratagem.Files
