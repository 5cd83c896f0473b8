import Mathlib.Data.List.TakeWhile
import Stratagem.Files.Place

/-!
# Where paths lead

A path is followed piece by piece from where it starts, and so leads to a place of its own, whatever
is there (`Place.ofPath`). Two cuts of a path matter to those who write files: the pieces go on after
a slash (`pieces_append_slash`), so the pieces of the folder come first in the pieces of a path in it,
and an ending without a slash lengthens the last piece alone (`pieces_append`), so it leads to the
place beside (`Place.ofPath_append`).

Cutting off the last piece also takes the slashes before it, unless there is nothing else. A path is
therefore its folder with a slash behind it, or its folder is nothing but slashes
(`parentPath_cases`).
-/

namespace Stratagem.Files

/-! ## Pieces -/

theorem pieces_ne_nil (path : List Char) : pieces path ≠ [] := by
  cases path with
  | nil => simp [pieces]
  | cons c rest =>
    unfold pieces
    split
    · exact List.cons_ne_nil _ _
    · split <;> exact List.cons_ne_nil _ _

theorem dropLast_append_getLastD (path : List Char) :
    (pieces path).dropLast ++ [(pieces path).getLastD []] = pieces path := by
  rw [List.getLastD_eq_getLast?, List.getLast?_eq_some_getLast (pieces_ne_nil path)]
  exact List.dropLast_concat_getLast (pieces_ne_nil path)

/-- A character that is no slash belongs to the first piece. -/
theorem pieces_cons {c : Char} (hc : c ≠ '/') (rest : List Char) :
    pieces (c :: rest) = (c :: (pieces rest).headD []) :: (pieces rest).tail := by
  rw [pieces, if_neg hc]
  split
  next hnil => exact absurd hnil (pieces_ne_nil rest)
  next first others hpieces => rw [hpieces]; rfl

/-- **A slash parts pieces.** -/
theorem pieces_append_slash (front back : List Char) :
    pieces (front ++ '/' :: back) = pieces front ++ pieces back := by
  induction front with
  | nil => simp [pieces]
  | cons c front ih =>
    rw [List.cons_append]
    by_cases hc : c = '/'
    · rw [pieces, pieces, if_pos hc, if_pos hc, ih, List.cons_append]
    · rw [pieces_cons hc, pieces_cons hc, ih]
      obtain ⟨first, others, hfront⟩ := List.exists_cons_of_ne_nil (pieces_ne_nil front)
      rw [hfront]
      rfl

/-- A text without a slash is one piece. -/
theorem pieces_of_not_mem {path : List Char} (h : '/' ∉ path) : pieces path = [path] := by
  induction path with
  | nil => rfl
  | cons c path ih =>
    obtain ⟨hc, hpath⟩ := not_or.mp (List.mem_cons.not.mp h)
    rw [pieces_cons (Ne.symm hc), ih hpath]
    rfl

/-- **An ending without a slash lengthens the last piece.** -/
theorem pieces_append (path : List Char) {ending : List Char} (h : '/' ∉ ending) :
    pieces (path ++ ending) =
      (pieces path).dropLast ++ [(pieces path).getLastD [] ++ ending] := by
  induction path with
  | nil => exact pieces_of_not_mem h
  | cons c path ih =>
    obtain ⟨first, others, hpath⟩ := List.exists_cons_of_ne_nil (pieces_ne_nil path)
    rw [hpath] at ih
    rw [List.cons_append]
    by_cases hc : c = '/'
    · rw [pieces, pieces, if_pos hc, if_pos hc, ih, hpath]
      rfl
    · rw [pieces_cons hc, pieces_cons hc, ih, hpath]
      cases others <;> rfl

theorem dropLast_pieces_append (path : List Char) {ending : List Char} (h : '/' ∉ ending) :
    (pieces (path ++ ending)).dropLast = (pieces path).dropLast := by
  rw [pieces_append path h, List.dropLast_concat]

theorem getLastD_pieces_append (path : List Char) {ending : List Char} (h : '/' ∉ ending) :
    (pieces (path ++ ending)).getLastD [] = (pieces path).getLastD [] ++ ending := by
  rw [pieces_append path h, List.getLastD_concat]

/-- Slashes alone part nothing. -/
theorem eq_nil_of_mem_pieces {path : List Char} (h : ∀ c ∈ path, c = '/') :
    ∀ piece ∈ pieces path, piece = [] := by
  induction path with
  | nil => simp [pieces]
  | cons c path ih =>
    obtain ⟨hc, hpath⟩ := List.forall_mem_cons.mp h
    rw [pieces, if_pos hc]
    exact List.forall_mem_cons.mpr ⟨rfl, ih hpath⟩

/-! ## Folders -/

/-- The slashes at the end of a path, and the path before them. -/
theorem exists_slashes (path : List Char) : ∃ n,
    path = (path.reverse.dropWhile (· = '/')).reverse ++ List.replicate n '/' := by
  have hslashes : path.reverse.takeWhile (· = '/') =
      List.replicate (path.reverse.takeWhile (· = '/')).length '/' :=
    List.eq_replicate_iff.mpr ⟨rfl, fun c hc => by simpa using List.mem_takeWhile_imp hc⟩
  refine ⟨(path.reverse.takeWhile (· = '/')).length, ?_⟩
  rw [← List.reverse_replicate, ← hslashes, ← List.reverse_append,
    List.takeWhile_append_dropWhile, List.reverse_reverse]

/-- **A path is its folder with a slash behind it, or its folder is nothing but slashes.** In the
second case the rest of the path is its last piece. -/
theorem parentPath_cases (path : List Char) :
    (∃ rest, path = parentPath path ++ '/' :: rest) ∨
      (∀ c ∈ parentPath path, c = '/') ∧ path = parentPath path ++ lastPiece path := by
  have hsplit : path = (path.reverse.dropWhile (· ≠ '/')).reverse ++ lastPiece path := by
    rw [lastPiece, ← List.reverse_append, List.takeWhile_append_dropWhile, List.reverse_reverse]
  have hhead : ∀ c ∈ (path.reverse.dropWhile (· ≠ '/')).head?, c = '/' := by
    intro c hc
    have hstop := List.head?_dropWhile_not (fun c : Char => decide (c ≠ '/')) path.reverse
    rw [Option.mem_def.mp hc] at hstop
    simpa using hstop
  unfold parentPath
  generalize path.reverse.dropWhile (· ≠ '/') = front at hsplit hhead
  by_cases hall : front.all (· = '/') = true
  · right
    rw [if_pos hall]
    exact ⟨fun c hc => by simpa using List.all_eq_true.mp hall c (List.mem_reverse.mp hc), hsplit⟩
  · left
    rw [if_neg hall]
    -- what is before the last piece ends with a slash, and is not made of slashes alone
    cases front with
    | nil => exact absurd rfl hall
    | cons c before =>
      obtain rfl : c = '/' := hhead c rfl
      obtain ⟨n, hbefore⟩ := exists_slashes before.reverse
      rw [List.reverse_reverse] at hbefore
      refine ⟨List.replicate n '/' ++ lastPiece path, ?_⟩
      calc path = before.reverse ++ ['/'] ++ lastPiece path := by rw [← List.reverse_cons, ← hsplit]
        _ = (before.dropWhile (· = '/')).reverse ++ (List.replicate n '/' ++ ['/']) ++
              lastPiece path := by rw [hbefore]; simp
        _ = _ := by
          rw [← List.replicate_succ', List.replicate_succ]
          simp

theorem parentPath_isPrefix (path : List Char) : parentPath path <+: path := by
  rcases parentPath_cases path with ⟨rest, hpath⟩ | ⟨-, hpath⟩
  · exact ⟨'/' :: rest, hpath.symm⟩
  · exact ⟨lastPiece path, hpath.symm⟩

/-- A path is as long as any path that it goes on, or longer. -/
theorem isOverlong_of_isPrefix {front path : List Char} (h : front <+: path)
    (hlong : isOverlong front = true) : isOverlong path = true := by
  obtain ⟨rest, rfl⟩ := h
  unfold isOverlong at *
  rw [String.ofList_append, String.utf8ByteSize_append]
  simp only [decide_eq_true_eq] at *
  omega

/-! ## Places -/

namespace Place

/-- The place that a path leads to. -/
def ofPath (path : List Char) : Place := (pieces path).foldl step (start path)

theorem start_append {front : List Char} (h : front ≠ []) (back : List Char) :
    start (front ++ back) = start front := by
  obtain ⟨c, rest, rfl⟩ := List.exists_cons_of_ne_nil h
  rfl

/-- Slashes at the end of a path lead nowhere else. -/
theorem ofPath_append_slashes {path : List Char} (h : path ≠ []) (n : Nat) :
    ofPath (path ++ List.replicate n '/') = ofPath path := by
  induction n with
  | zero => rw [List.replicate_zero, List.append_nil]
  | succ n ih =>
    rw [List.replicate_succ', ← List.append_assoc, ← ih]
    have hne : path ++ List.replicate n '/' ≠ [] := List.append_ne_nil_of_left_ne_nil h _
    unfold ofPath
    rw [pieces_append_slash, start_append hne, List.foldl_append]
    rfl

/-- The pieces that name something new in the folder before them. -/
def IsName (piece : List Char) : Prop := piece ≠ [] ∧ piece ≠ ['.'] ∧ piece ≠ ['.', '.']

instance (piece : List Char) : Decidable (IsName piece) :=
  inferInstanceAs (Decidable (piece ≠ [] ∧ piece ≠ ['.'] ∧ piece ≠ ['.', '.']))

theorem step_of_isName {piece : List Char} (h : IsName piece) (place : Place) :
    place.step piece = place.child (String.ofList piece) := by
  obtain ⟨hne, hdot, hdots⟩ := h
  rw [step, if_neg (not_or.mpr ⟨hne, hdot⟩), if_neg hdots]

/-- A name with an ending is a name. -/
theorem IsName.append {piece : List Char} (h : IsName piece) (ending : List Char) :
    IsName (piece ++ ending) := by
  obtain ⟨hne, hdot, hdots⟩ := h
  obtain ⟨c, rest, rfl⟩ := List.exists_cons_of_ne_nil hne
  refine ⟨List.cons_ne_nil _ _, fun heq => hdot ?_, fun heq => ?_⟩
  · obtain ⟨rfl, hnil⟩ := List.cons.inj heq
    rw [(List.append_eq_nil_iff.mp hnil).1]
  · obtain ⟨rfl, hrest⟩ := List.cons.inj heq
    rcases rest with _ | ⟨d, rest⟩
    · exact hdot rfl
    · obtain ⟨rfl, hnil⟩ := List.cons.inj hrest
      exact hdots (by rw [(List.append_eq_nil_iff.mp hnil).1])

section

variable {path : List Char} (h : IsName ((pieces path).getLastD []))
include h

theorem ne_nil_of_isName : path ≠ [] := by
  rintro rfl
  exact h.1 rfl

/-- A path that ends with a name leads to what has this name in its folder. -/
theorem ofPath_eq_child :
    ofPath path = ((pieces path).dropLast.foldl step (start path)).child
      (String.ofList ((pieces path).getLastD [])) := by
  calc ofPath path
      = ((pieces path).dropLast ++ [(pieces path).getLastD []]).foldl step (start path) := by
        rw [dropLast_append_getLastD, ofPath]
    _ = _ := by rw [List.foldl_append, List.foldl_cons, List.foldl_nil, step_of_isName h]

/-- The name at the end of a path is the name of the place. -/
theorem getLastD_names_ofPath :
    (ofPath path).names.getLastD "" = String.ofList ((pieces path).getLastD []) := by
  rw [ofPath_eq_child h, child, List.getLastD_concat]

/-- **A path with an ending leads to the place beside.** -/
theorem ofPath_append {ending : String} (hending : '/' ∉ ending.toList) :
    ofPath (path ++ ending.toList) = (ofPath path).extended ending := by
  have hlast := getLastD_pieces_append path hending
  rw [ofPath_eq_child (by rw [hlast]; exact h.append _), hlast, extended, getLastD_names_ofPath h,
    dropLast_pieces_append path hending, start_append (ne_nil_of_isName h), ofPath_eq_child h,
    child, child, List.dropLast_concat, String.ofList_append, String.ofList_toList]

/-- The place beside is another one. -/
theorem ofPath_append_ne {ending : String} (hending : '/' ∉ ending.toList) (hne : ending ≠ "") :
    ofPath (path ++ ending.toList) ≠ ofPath path := by
  intro heq
  have hlast := getLastD_pieces_append path hending
  have hname : IsName ((pieces (path ++ ending.toList)).getLastD []) := by
    rw [hlast]
    exact h.append _
  have hsame : String.ofList ((pieces path).getLastD [] ++ ending.toList) =
      String.ofList ((pieces path).getLastD []) := by
    rw [← hlast, ← getLastD_names_ofPath hname, heq, getLastD_names_ofPath h]
  have hnil : ending.toList = [] := List.append_right_eq_self.mp (String.ofList_inj.mp hsame)
  exact hne (String.toList_inj.mp hnil)

end

end Place

end Stratagem.Files
