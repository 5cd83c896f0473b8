/-!
# Paths

A path is a text whose pieces are parted by slashes. Two views are needed: the pieces one by one,
which a walk through folders follows, and the split into the path of the parent and the last piece.
-/

namespace Stratagem.Files

/-- The pieces of a path, those between two slashes included. -/
def pieces : List Char → List (List Char)
  | [] => [[]]
  | c :: rest =>
    if c = '/' then [] :: pieces rest
    else
      match pieces rest with
      | [] => [[c]]
      | first :: others => (c :: first) :: others

/-- The last piece of a path. -/
def lastPiece (path : List Char) : List Char := (path.reverse.takeWhile (· ≠ '/')).reverse

/-- The path before the last piece, without the slashes at its end unless it has nothing else. -/
def parentPath (path : List Char) : List Char :=
  let front := path.reverse.dropWhile (· ≠ '/')
  if front.all (· = '/') then front.reverse else (front.dropWhile (· = '/')).reverse

/-- The two parts of a path do not overlap. -/
theorem length_parent_add_last (path : List Char) :
    (parentPath path).length + (lastPiece path).length ≤ path.length := by
  have split : (path.reverse.takeWhile (· ≠ '/')).length + (path.reverse.dropWhile (· ≠ '/')).length
      = path.length := by
    rw [← List.length_append, List.takeWhile_append_dropWhile, List.length_reverse]
  have shorter : ((path.reverse.dropWhile (· ≠ '/')).dropWhile (· = '/')).length
      ≤ (path.reverse.dropWhile (· ≠ '/')).length :=
    (List.dropWhile_sublist _).length_le
  unfold parentPath lastPiece
  simp only [List.length_reverse]
  split
  · simp only [List.length_reverse]; omega
  · simp only [List.length_reverse]; omega

/-- The pieces that name something: neither empty nor a single dot. -/
def steps (path : String) : List String :=
  ((pieces path.toList).filter fun piece => piece ≠ [] ∧ piece ≠ ['.']).map String.ofList

/-- The slashes that a path keeps at its start: one or two stay as they are, and more count as
one. -/
def rootSlashes (path : List Char) : List Char :=
  let slashes := path.takeWhile (· = '/')
  if slashes.length ≤ 2 then slashes else ['/']

/-- The path in its shortest spelling. -/
def tidy (path : String) : String :=
  String.ofList (rootSlashes path.toList) ++ "/".intercalate (steps path)

/-- The greatest length of a path in bytes. -/
def maxPathLength : Nat := 4095

/-- Whether a path is too long for any use. -/
def isOverlong (path : List Char) : Bool := maxPathLength < (String.ofList path).utf8ByteSize

end Stratagem.Files
