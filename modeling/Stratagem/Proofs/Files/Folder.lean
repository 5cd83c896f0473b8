import Stratagem.Proofs.Files.Store

/-!
# Folders on the way

The folder of a path that names something in a folder is there (`Names.isFolder_parentPath`), and
making folders that are there does nothing (`makeFolders_of_isFolder`). So it does not matter how
often the folders of a path are made. Whatever comes of making folders, no file is touched
(`file?_makeFolders`).

A path is accepted for a new file if making the folders that lead to it is no fault and the path is
then writable (`Accepts`). A mere name is accepted unless it is too long or a folder has it
(`accepts_of_name`).
-/

namespace Stratagem.Files.Store

variable {store : Store} {path : List Char}

/-! ## Folders at paths -/

theorem isFolder_eq_true_iff : store.isFolder path = true ↔
    ∃ place, store.locate path = .ok place ∧ store.entry? place = some .folder := by
  unfold isFolder
  cases hlocate : store.locate path with
  | error cause => simp
  | ok place => simp

/-- A dot names the folder that a path starts in. -/
theorem isFolder_dot : store.isFolder ['.'] = true := by
  have hworking : store.entry? .working = some .folder := rfl
  refine isFolder_eq_true_iff.mpr ⟨.working, ?_, hworking⟩
  have hfollow : store.follow .working ['.'] = .ok .working :=
    follow_eq_ok_iff.mpr ⟨hworking, by decide, rfl, rfl⟩
  rw [locate, if_neg (by decide), if_neg (by decide)]
  exact followAll_cons_eq_ok_iff.mpr ⟨_, hfollow, rfl⟩

/-- Slashes alone lead to the root, which is a folder. -/
theorem isFolder_slashes (hslashes : ∀ c ∈ path, c = '/') (hne : path ≠ [])
    (hfits : isOverlong path = false) : store.isFolder path = true := by
  obtain ⟨c, rest, rfl⟩ := List.exists_cons_of_ne_nil hne
  obtain rfl : c = '/' := hslashes c List.mem_cons_self
  have hroot : store.entry? ⟨.root, []⟩ = some .folder := rfl
  have hwalk : ∀ pieces : List (List Char), (∀ piece ∈ pieces, piece = []) →
      store.followAll ⟨.root, []⟩ pieces = .ok ⟨.root, []⟩ := by
    intro pieces hpieces
    induction pieces with
    | nil => rfl
    | cons piece pieces ih =>
      obtain ⟨rfl, hrest⟩ := List.forall_mem_cons.mp hpieces
      exact followAll_cons_eq_ok_iff.mpr
        ⟨_, follow_eq_ok_iff.mpr ⟨hroot, by decide, rfl, rfl⟩, ih hrest⟩
  refine isFolder_eq_true_iff.mpr ⟨_, ?_, hroot⟩
  rw [locate, if_neg (by rw [hfits]; simp), if_neg hne]
  exact hwalk _ (eq_nil_of_mem_pieces hslashes)

/-- **The folder of a path is there** if the path leads to its last piece. -/
theorem isFolder_parentPath_of_walk {folder : Place} (hfits : isOverlong path = false)
    (hwalk : store.followAll (Place.start path) (pieces path).dropLast = .ok folder)
    (hfolder : store.entry? folder = some .folder) (hne : parentPath path ≠ []) :
    store.isFolder (parentPath path) = true := by
  have hparent : isOverlong (parentPath path) = false := by
    rw [Bool.eq_false_iff] at hfits ⊢
    exact fun hlong => hfits (isOverlong_of_isPrefix (parentPath_isPrefix path) hlong)
  rcases parentPath_cases path with ⟨rest, hpath⟩ | ⟨hslashes, -⟩
  · -- the pieces of the folder come first, and the walk comes through them
    have hpieces : (pieces path).dropLast =
        pieces (parentPath path) ++ (pieces rest).dropLast := by
      rw [congrArg pieces hpath, pieces_append_slash,
        List.dropLast_append_of_ne_nil (pieces_ne_nil rest)]
    have hstart : Place.start path = Place.start (parentPath path) := by
      rw [congrArg Place.start hpath, Place.start_append hne]
    rw [hpieces, hstart] at hwalk
    obtain ⟨middle, hmiddle, hrest⟩ := followAll_append_eq_ok_iff.mp hwalk
    refine isFolder_eq_true_iff.mpr ⟨middle, ?_, folder_of_followAll hrest hfolder⟩
    rw [locate, if_neg (by rw [hparent]; simp), if_neg hne]
    exact hmiddle
  · exact isFolder_slashes hslashes hne hparent

theorem Names.isFolder_parentPath (h : store.Names path) (hne : parentPath path ≠ []) :
    store.isFolder (parentPath path) = true := by
  obtain ⟨folder, hwalk, hfolder⟩ := h.inFolder
  exact isFolder_parentPath_of_walk h.fits hwalk hfolder hne

/-- What is there is in a folder that is there. -/
theorem isFolder_parentPath_of_locate {place : Place} (h : store.locate path = .ok place)
    (hne : parentPath path ≠ []) : store.isFolder (parentPath path) = true := by
  unfold locate at h
  split at h
  · cases h
  next hlong =>
    split at h
    · cases h
    · rw [← dropLast_append_getLastD] at h
      obtain ⟨folder, hwalk, hlast⟩ := followAll_append_eq_ok_iff.mp h
      obtain ⟨next, hnext, -⟩ := followAll_cons_eq_ok_iff.mp hlast
      have hfolder := (follow_eq_ok_iff.mp hnext).1
      exact isFolder_parentPath_of_walk (by simpa using hlong) hwalk hfolder hne

/-! ## Making folders -/

/-- **A folder is made where nothing is.** -/
theorem makeFolder_eq_ok {changed : Store} (h : store.makeFolder path = .ok changed) :
    store.entry? (Place.ofPath path) = none ∧
      changed = store.insert (Place.ofPath path) .folder := by
  rw [makeFolder, onPath_eq_ok_iff] at h
  simp only [guard_eq_ok_iff, bind_eq_ok_iff] at h
  obtain ⟨-, -, -, hbare, place, hplace, hnone, hchanged⟩ := h
  obtain ⟨n, hpath⟩ := exists_slashes path
  obtain ⟨-, rfl⟩ := newPlace_eq_ok_iff.mp hplace
  have hsame : Place.ofPath path = Place.ofPath (path.reverse.dropWhile (· = '/')).reverse := by
    rw [congrArg Place.ofPath hpath, Place.ofPath_append_slashes hbare n]
  rw [hsame]
  exact ⟨by simpa using hnone, (Except.ok.inj hchanged).symm⟩

/-- Making a folder that is there does nothing. -/
theorem ensureFolder_of_isFolder (h : store.isFolder path = true) :
    store.ensureFolder path = ⟨store, none⟩ := by
  unfold ensureFolder
  cases hmake : store.makeFolder path with
  | error fault =>
    show (⟨store, if store.isFolder path then none else some fault⟩ : Attempt) = _
    rw [if_pos h]
  | ok changed =>
    obtain ⟨place, hplace, hfolder⟩ := isFolder_eq_true_iff.mp h
    obtain rfl := eq_of_locate hplace
    rw [(makeFolder_eq_ok hmake).1] at hfolder
    simp at hfolder

/-- The path before the last step of a path to a folder is empty or leads to a folder too. -/
theorem contains_lastStep (h : store.isFolder path = true) (hne : (lastStep path).1 ≠ []) :
    store.contains (lastStep path).1 = true := by
  have hfolder : ∀ path, store.isFolder path = true → parentPath path ≠ [] →
      store.isFolder (parentPath path) = true := by
    intro path h hne
    obtain ⟨place, hplace, -⟩ := isFolder_eq_true_iff.mp h
    exact isFolder_parentPath_of_locate hplace hne
  have hlast : store.isFolder (lastStep path).1 = true := by
    unfold lastStep at hne ⊢
    by_cases hpiece : lastPiece path = []
    · rw [if_pos hpiece] at hne ⊢
      have hparent : parentPath path ≠ [] := by
        intro hnil
        rw [hnil] at hne
        exact hne rfl
      exact hfolder _ (hfolder path h hparent) hne
    · rw [if_neg hpiece] at hne ⊢
      exact hfolder path h hne
  obtain ⟨place, hplace, -⟩ := isFolder_eq_true_iff.mp hlast
  rw [contains, hplace]
  rfl

/-- **Making the folders of a path that are there does nothing.** -/
theorem makeFolders_of_isFolder (h : store.isFolder path = true) :
    store.makeFolders path = ⟨store, none⟩ := by
  rw [makeFolders, dif_neg ?_]
  · exact ensureFolder_of_isFolder h
  · rintro ⟨-, hne, hmissing⟩
    exact hmissing (contains_lastStep h hne)

/-- **Making folders touches no file**, also if it fails on the way. -/
theorem file?_makeFolders (store : Store) (path : List Char) :
    (store.makeFolders path).store.file? = store.file? := by
  have hensure : ∀ (store : Store) (path : List Char),
      (store.ensureFolder path).store.file? = store.file? := by
    intro store path
    unfold ensureFolder
    cases hmake : store.makeFolder path with
    | error fault => rfl
    | ok changed =>
      obtain ⟨hnone, rfl⟩ := makeFolder_eq_ok hmake
      exact file?_insert_folder hnone
  fun_induction makeFolders store path
  -- nothing is left to do behind the folders that lead there
  case case1 ih => exact ih
  case case3 ih => exact ih
  case case5 ih => exact ih
  -- the last folder is made too
  case case2 ih => exact (hensure _ _).trans ih
  case case4 ih => exact (hensure _ _).trans ih
  case case6 => exact hensure _ _

/-! ## Accepted paths -/

/-- What is left after the folders on the way to a file have been made, if there is a path to them. -/
def prepared (store : Store) (folder : List Char) : Attempt :=
  if folder.isEmpty then ⟨store, none⟩ else store.makeFolders folder

theorem file?_prepared (store : Store) (folder : List Char) :
    (store.prepared folder).store.file? = store.file? := by
  unfold prepared
  split
  · rfl
  · exact file?_makeFolders store folder

theorem prepared_of_isFolder (h : store.isFolder path = true) :
    store.prepared path = ⟨store, none⟩ := by
  unfold prepared
  split
  · rfl
  · exact makeFolders_of_isFolder h

/-- **A path at which a file can be written** once the folders that lead there have been made, which
is no fault. -/
structure Accepts (store : Store) (path : String) : Prop where
  prepared : (store.prepared (parentPath path.toList)).fault = none
  writable : Writable (store.prepared (parentPath path.toList)).store path

/-- A name that leads nowhere else is a path in the working folder. -/
theorem parentPath_of_not_mem (h : '/' ∉ path) : parentPath path = [] := by
  have hnone : path.reverse.dropWhile (· ≠ '/') = [] := by
    rw [List.dropWhile_eq_nil_iff]
    intro c hc
    have hslash : c ≠ '/' := by
      rintro rfl
      exact h (List.mem_reverse.mp hc)
    simpa using hslash
  rw [parentPath, hnone]
  rfl

/-- **A mere name is writable** unless it is too long or a folder has it. -/
theorem writable_of_name {path : String} (hslash : '/' ∉ path.toList)
    (hname : Place.IsName path.toList) (hnull : Char.ofNat 0 ∉ path.toList)
    (hroom : store.HasRoom (Place.ofPath path.toList)) : store.Writable path := by
  have hpieces : pieces path.toList = [path.toList] := pieces_of_not_mem hslash
  have hlast : (pieces path.toList).getLastD [] = path.toList := by rw [hpieces]; rfl
  have hname' : Place.IsName ((pieces path.toList).getLastD []) := by rw [hlast]; exact hname
  have hshort := hroom.short
  rw [Place.getLastD_names_ofPath hname'] at hshort
  have hfits : isOverlong path.toList = false := by
    rw [hlast] at hshort
    unfold maxNameLength at hshort
    unfold isOverlong maxPathLength
    simp only [decide_eq_false_iff_not]
    omega
  refine ⟨⟨hfits, ⟨Place.start path.toList, ?_, ?_⟩, hname', hshort⟩, hnull, hroom.noFolder⟩
  · rw [hpieces]
    rfl
  · unfold Place.start
    split
    · rfl
    · rfl

theorem accepts_of_name {path : String} (hslash : '/' ∉ path.toList)
    (hname : Place.IsName path.toList) (hnull : Char.ofNat 0 ∉ path.toList)
    (hroom : store.HasRoom (Place.ofPath path.toList)) : store.Accepts path := by
  have hprepared : store.prepared (parentPath path.toList) = ⟨store, none⟩ := by
    rw [parentPath_of_not_mem hslash]
    rfl
  constructor
  · rw [hprepared]
  · rw [hprepared]
    exact writable_of_name hslash hname hnull hroom

end Stratagem.Files.Store
