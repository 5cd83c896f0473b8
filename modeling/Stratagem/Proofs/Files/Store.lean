import Mathlib.Logic.Function.Basic
import Stratagem.Files.Store
import Stratagem.Proofs.Files.Path
import Stratagem.Proofs.Success

/-!
# Files change one by one

What a store holds is seen place by place (`Store.entry?`), and the files alone make a view of their
own (`Store.file?`). An operation on a store is described by what it does to this view: writing and
removing a file change it at the place of the path and nowhere else (`write_eq_ok_iff`, `remove_eq_ok`),
and making folders does not change it (`makeFolder_eq_ok`).

What is asked of a path before a file can be written at it is kept in a structure
(`Store.Writable`). Files that are written do not change it, the one at the path itself included
(`writable_insert_iff`), so a path can be used again.
-/

namespace Stratagem.Files.Store

variable {store : Store} {place : Place}

/-! ## What is at a place -/

theorem lookup_filter_ne (entries : List (Place × Entry)) (place q : Place) :
    (entries.filter fun entry => entry.1 ≠ place).lookup q =
      if q = place then none else entries.lookup q := by
  induction entries with
  | nil => simp
  | cons entry entries ih =>
    by_cases hentry : entry.1 = place
    · rw [List.filter_cons_of_neg (by simpa using hentry), ih, List.lookup_cons]
      split
      next => rfl
      next hq =>
        have hne : (q == entry.1) = false := by rw [hentry]; simpa using hq
        rw [hne]
    · rw [List.filter_cons_of_pos (by simpa using hentry), List.lookup_cons, List.lookup_cons, ih]
      by_cases hq : q = entry.1
      · have hne : q ≠ place := fun heq => hentry (hq.symm.trans heq)
        rw [beq_iff_eq.mpr hq]
        exact (if_neg hne).symm
      · have hne : (q == entry.1) = false := by simpa using hq
        rw [hne]

/-- What is no folder has a name: a place without names is a folder, whatever the store. -/
theorem isEmpty_names_eq_false (h : store.entry? place ≠ some .folder) : place.names.isEmpty = false := by
  cases hnames : place.names.isEmpty with
  | false => rfl
  | true =>
    refine absurd ?_ h
    unfold entry?
    rw [hnames]
    rfl

/-- **A new entry is at its place, and all else is as it was.** -/
theorem entry?_insert (h : store.entry? place ≠ some .folder) (entry : Entry) (q : Place) :
    entry? (store.insert place entry) q = if q = place then some entry else store.entry? q := by
  have hplace := isEmpty_names_eq_false h
  unfold entry? insert erase
  by_cases hq : q = place
  · rw [if_pos hq, hq, hplace, List.lookup_cons, beq_self_eq_true]
    rfl
  · have hne : (q == place) = false := by simpa using hq
    rw [if_neg hq, List.lookup_cons, hne, lookup_filter_ne, if_neg hq]

theorem entry?_erase (h : store.entry? place ≠ some .folder) (q : Place) :
    entry? (store.erase place) q = if q = place then none else store.entry? q := by
  have hplace := isEmpty_names_eq_false h
  unfold entry? erase
  by_cases hq : q = place
  · rw [if_pos hq, hq, hplace, lookup_filter_ne, if_pos rfl]
    rfl
  · rw [if_neg hq, lookup_filter_ne, if_neg hq]

/-! ## The files -/

/-- The bytes of the file at a place. -/
def file? (store : Store) (place : Place) : Option (List UInt8) :=
  match store.entry? place with
  | some (.file bytes) => some bytes
  | _ => none

theorem file?_insert_file (h : store.entry? place ≠ some .folder) (bytes : List UInt8) :
    (store.insert place (.file bytes)).file? = Function.update store.file? place (some bytes) := by
  funext q
  unfold file?
  rw [entry?_insert h]
  by_cases hq : q = place
  · rw [if_pos hq, hq, Function.update_self]
  · rw [if_neg hq, Function.update_of_ne hq]

theorem file?_insert_folder (h : store.entry? place = none) :
    (store.insert place .folder).file? = store.file? := by
  funext q
  unfold file?
  rw [entry?_insert (by rw [h]; simp)]
  by_cases hq : q = place
  · rw [if_pos hq, hq, h]
  · rw [if_neg hq]

theorem file?_erase (h : store.entry? place ≠ some .folder) :
    (store.erase place).file? = Function.update store.file? place none := by
  funext q
  unfold file?
  rw [entry?_erase h]
  by_cases hq : q = place
  · rw [if_pos hq, hq, Function.update_self]
  · rw [if_neg hq, Function.update_of_ne hq]

/-! ## Walks -/

/-- One piece is followed from a folder, if it is not too long, to what is there. -/
theorem follow_eq_ok_iff {piece : List Char} {q : Place} :
    store.follow place piece = .ok q ↔
      store.entry? place = some .folder ∧
      ¬ maxNameLength < (String.ofList piece).utf8ByteSize ∧
      (store.entry? (place.step piece)).isSome ∧ q = place.step piece := by
  unfold follow
  split
  next h => simp [h]
  next hfolder =>
    split
    next h => simp [h]
    next hshort =>
      split
      next h => simp [Option.isNone_iff_eq_none.mp h]
      next hsome =>
        have hfolder := not_not.mp hfolder
        have hsome : (store.entry? (place.step piece)).isSome = true :=
          Option.isSome_iff_ne_none.mpr fun hnone => hsome (Option.isNone_iff_eq_none.mpr hnone)
        exact ⟨fun h => ⟨hfolder, hshort, hsome, (Except.ok.inj h).symm⟩, fun h => by rw [h.2.2.2]⟩

theorem followAll_cons_eq_ok_iff {piece : List Char} {rest : List (List Char)} {q : Place} :
    store.followAll place (piece :: rest) = .ok q ↔
      ∃ next, store.follow place piece = .ok next ∧ store.followAll next rest = .ok q := by
  rw [followAll, bind_eq_ok_iff]

theorem followAll_append_eq_ok_iff {front back : List (List Char)} {q : Place} :
    store.followAll place (front ++ back) = .ok q ↔
      ∃ middle, store.followAll place front = .ok middle ∧
        store.followAll middle back = .ok q := by
  induction front generalizing place with
  | nil =>
    constructor
    · intro h
      exact ⟨place, rfl, h⟩
    · rintro ⟨_, hmiddle, h⟩
      cases hmiddle
      exact h
  | cons piece front ih =>
    rw [List.cons_append, followAll_cons_eq_ok_iff]
    constructor
    · rintro ⟨next, hnext, h⟩
      obtain ⟨middle, hmiddle, hback⟩ := ih.mp h
      exact ⟨middle, followAll_cons_eq_ok_iff.mpr ⟨next, hnext, hmiddle⟩, hback⟩
    · rintro ⟨middle, hmiddle, hback⟩
      obtain ⟨next, hnext, hrest⟩ := followAll_cons_eq_ok_iff.mp hmiddle
      exact ⟨next, hnext, ih.mpr ⟨middle, hrest, hback⟩⟩

/-- A walk that comes through comes to where its pieces lead. -/
theorem eq_of_followAll {pieces : List (List Char)} {q : Place}
    (h : store.followAll place pieces = .ok q) : q = pieces.foldl Place.step place := by
  induction pieces generalizing place with
  | nil => exact (Except.ok.inj h).symm
  | cons piece pieces ih =>
    obtain ⟨next, hnext, hrest⟩ := followAll_cons_eq_ok_iff.mp h
    obtain ⟨-, -, -, rfl⟩ := follow_eq_ok_iff.mp hnext
    exact ih hrest

/-- A walk starts in a folder, unless it has no pieces. -/
theorem folder_of_followAll {pieces : List (List Char)} {q : Place}
    (h : store.followAll place pieces = .ok q) (hq : store.entry? q = some .folder) :
    store.entry? place = some .folder := by
  cases pieces with
  | nil =>
    obtain rfl := Except.ok.inj h
    exact hq
  | cons piece pieces =>
    obtain ⟨next, hnext, -⟩ := followAll_cons_eq_ok_iff.mp h
    exact (follow_eq_ok_iff.mp hnext).1

/-! ## Walks past files -/

section

variable {bytes : List UInt8} (hplace : store.entry? place ≠ some .folder)
include hplace

/-- A file that is written where no folder is makes and takes no folder. -/
theorem entry?_insert_eq_folder_iff (q : Place) :
    entry? (store.insert place (.file bytes)) q = some .folder ↔ store.entry? q = some .folder := by
  rw [entry?_insert hplace]
  split
  next hq => simp [hq, hplace]
  next => rfl

/-- A step to a folder is neither stopped nor helped by a file. -/
theorem follow_insert_iff {piece : List Char} {q r : Place} (hr : store.entry? r = some .folder) :
    (store.insert place (.file bytes)).follow q piece = .ok r ↔ store.follow q piece = .ok r := by
  have hr' : entry? (store.insert place (.file bytes)) r = some .folder :=
    (entry?_insert_eq_folder_iff hplace r).mpr hr
  rw [follow_eq_ok_iff, follow_eq_ok_iff, entry?_insert_eq_folder_iff hplace]
  refine and_congr_right fun _ => and_congr_right fun _ => ?_
  constructor
  · rintro ⟨-, rfl⟩
    rw [hr]
    exact ⟨rfl, rfl⟩
  · rintro ⟨-, rfl⟩
    rw [hr']
    exact ⟨rfl, rfl⟩

/-- **Nor is a walk to a folder.** All that it comes to are folders, since it goes on from there. -/
theorem followAll_insert_iff {pieces : List (List Char)} {q r : Place}
    (hr : store.entry? r = some .folder) :
    (store.insert place (.file bytes)).followAll q pieces = .ok r ↔
      store.followAll q pieces = .ok r := by
  have hr' : entry? (store.insert place (.file bytes)) r = some .folder :=
    (entry?_insert_eq_folder_iff hplace r).mpr hr
  induction pieces generalizing q with
  | nil => rfl
  | cons piece pieces ih =>
    rw [followAll_cons_eq_ok_iff, followAll_cons_eq_ok_iff]
    constructor
    · rintro ⟨next, hnext, hrest⟩
      have hfolder := (entry?_insert_eq_folder_iff hplace _).mp (folder_of_followAll hrest hr')
      exact ⟨next, (follow_insert_iff hplace hfolder).mp hnext, ih.mp hrest⟩
    · rintro ⟨next, hnext, hrest⟩
      have hfolder := folder_of_followAll hrest hr
      exact ⟨next, (follow_insert_iff hplace hfolder).mpr hnext, ih.mpr hrest⟩

end

/-! ## Names in folders -/

/-- A path that ends with a name in a folder that is there. Neither the name nor the path is too
long. -/
structure Names (store : Store) (path : List Char) : Prop where
  fits : isOverlong path = false
  inFolder : ∃ folder, store.followAll (Place.start path) (pieces path).dropLast = .ok folder ∧
    store.entry? folder = some .folder
  isName : Place.IsName ((pieces path).getLastD [])
  short : ¬ maxNameLength < (String.ofList ((pieces path).getLastD [])).utf8ByteSize

theorem newPlace_eq_ok_iff {path : List Char} {dots : Cause} :
    store.newPlace path dots = .ok place ↔ store.Names path ∧ place = Place.ofPath path := by
  unfold newPlace
  simp only [guard_eq_ok_iff, bind_eq_ok_iff]
  constructor
  · rintro ⟨hlong, folder, hwalk, hfolder, hname, hshort, hplace⟩
    rw [not_or, not_or] at hname
    refine ⟨⟨by simpa using hlong, ⟨folder, hwalk, not_not.mp hfolder⟩, hname, hshort⟩, ?_⟩
    rw [Place.ofPath_eq_child hname, ← eq_of_followAll hwalk]
    exact (Except.ok.inj hplace).symm
  · rintro ⟨⟨hfits, ⟨folder, hwalk, hfolder⟩, hname, hshort⟩, rfl⟩
    refine ⟨by rw [hfits]; simp, folder, hwalk, not_not.mpr hfolder, ?_, hshort, ?_⟩
    · rw [not_or, not_or]
      exact hname
    · rw [Place.ofPath_eq_child hname, ← eq_of_followAll hwalk]
      rfl

/-- What has a name in a folder is found under it. -/
theorem Names.locate {path : List Char} (h : store.Names path)
    (hthere : (store.entry? (Place.ofPath path)).isSome) :
    store.locate path = .ok (Place.ofPath path) := by
  obtain ⟨folder, hwalk, hfolder⟩ := h.inFolder
  have hlast : Place.ofPath path = folder.step ((pieces path).getLastD []) := by
    rw [Place.ofPath_eq_child h.isName, ← eq_of_followAll hwalk, Place.step_of_isName h.isName]
  have hfollow : store.follow folder ((pieces path).getLastD []) = .ok (Place.ofPath path) :=
    follow_eq_ok_iff.mpr ⟨hfolder, h.short, by rw [← hlast]; exact hthere, hlast⟩
  rw [Store.locate, if_neg (by rw [h.fits]; simp), if_neg (Place.ne_nil_of_isName h.isName),
    ← dropLast_append_getLastD]
  exact followAll_append_eq_ok_iff.mpr
    ⟨folder, hwalk, followAll_cons_eq_ok_iff.mpr ⟨_, hfollow, rfl⟩⟩

theorem eq_of_locate {path : List Char} (h : store.locate path = .ok place) :
    place = Place.ofPath path := by
  unfold Store.locate at h
  split at h
  · cases h
  · split at h
    · cases h
    · exact eq_of_followAll h

/-! ## Writing and removing -/

theorem onPath_eq_ok_iff {α : Type} {path : String} {result : Except Cause α} {a : α} :
    onPath path result = .ok a ↔ Char.ofNat 0 ∉ path.toList ∧ result = .ok a := by
  unfold onPath
  by_cases h : Char.ofNat 0 ∈ path.toList
  · rw [if_pos h]
    constructor
    · intro herror
      cases herror
    · intro hok
      exact absurd h hok.1
  · rw [if_neg h]
    cases result <;> simp [Except.mapError, h]

/-- **A path at which a file can be written.** It ends with a name in a folder that is there, and the
name is not that of a folder. -/
structure Writable (store : Store) (path : String) : Prop extends Names store path.toList where
  noNull : Char.ofNat 0 ∉ path.toList
  noFolder : store.entry? (Place.ofPath path.toList) ≠ some .folder

theorem Writable.ne_empty {path : String} (h : store.Writable path) : path ≠ "" := by
  rintro rfl
  exact Place.ne_nil_of_isName h.isName rfl

theorem writeAt_eq_ok_iff {bytes : List UInt8} {changed : Store} :
    store.writeAt place bytes = .ok changed ↔
      store.entry? place ≠ some .folder ∧ changed = store.insert place (.file bytes) := by
  unfold writeAt
  by_cases h : store.entry? place = some .folder
  · rw [if_pos h]
    simp [h]
  · rw [if_neg h]
    simp [h, eq_comm]

/-- **Writing a file changes the store at the place of the path**, and succeeds if a file can be
written there. -/
theorem write_eq_ok_iff {path : String} {bytes : List UInt8} {changed : Store} :
    store.write path bytes = .ok changed ↔ store.Writable path ∧
      changed = store.insert (Place.ofPath path.toList) (.file bytes) := by
  rw [write, onPath_eq_ok_iff, bind_eq_ok_iff]
  constructor
  · rintro ⟨hnull, place, hplace, hwrite⟩
    obtain ⟨hnames, rfl⟩ := newPlace_eq_ok_iff.mp hplace
    obtain ⟨hfolder, rfl⟩ := writeAt_eq_ok_iff.mp hwrite
    exact ⟨⟨hnames, hnull, hfolder⟩, rfl⟩
  · rintro ⟨⟨hnames, hnull, hfolder⟩, rfl⟩
    exact ⟨hnull, _, newPlace_eq_ok_iff.mpr ⟨hnames, rfl⟩, writeAt_eq_ok_iff.mpr ⟨hfolder, rfl⟩⟩

/-- A file can be put at a place in a folder: there is no folder, and its name is not too long. -/
structure HasRoom (store : Store) (place : Place) : Prop where
  short : ¬ maxNameLength < (place.names.getLastD "").utf8ByteSize
  noFolder : store.entry? place ≠ some .folder

theorem writeBeside_eq_ok_iff {path ending : String} {bytes : List UInt8} {changed : Store}
    (hending : '/' ∉ ending.toList) :
    store.writeBeside path ending bytes = .ok changed ↔
      (Char.ofNat 0 ∉ path.toList ∧ store.Names path.toList) ∧
      store.HasRoom (Place.ofPath (path ++ ending).toList) ∧
      changed = store.insert (Place.ofPath (path ++ ending).toList) (.file bytes) := by
  rw [writeBeside, onPath_eq_ok_iff]
  simp only [guard_eq_ok_iff, bind_eq_ok_iff, String.toList_append]
  constructor
  · rintro ⟨hnull, place, hplace, hshort, hwrite⟩
    obtain ⟨hnames, rfl⟩ := newPlace_eq_ok_iff.mp hplace
    rw [Place.ofPath_append hnames.isName hending]
    obtain ⟨hfolder, rfl⟩ := writeAt_eq_ok_iff.mp hwrite
    exact ⟨⟨hnull, hnames⟩, ⟨hshort, hfolder⟩, rfl⟩
  · rintro ⟨⟨hnull, hnames⟩, hroom, rfl⟩
    rw [Place.ofPath_append hnames.isName hending] at *
    exact ⟨hnull, _, newPlace_eq_ok_iff.mpr ⟨hnames, rfl⟩, hroom.short,
      writeAt_eq_ok_iff.mpr ⟨hroom.noFolder, rfl⟩⟩

theorem remove_eq_ok {path : String} {changed : Store} (h : store.remove path = .ok changed) :
    store.entry? (Place.ofPath path.toList) ≠ some .folder ∧
      changed = store.erase (Place.ofPath path.toList) := by
  rw [remove, onPath_eq_ok_iff] at h
  simp only [guard_eq_ok_iff, bind_eq_ok_iff] at h
  obtain ⟨-, place, hplace, hfolder, hchanged⟩ := h
  obtain rfl := eq_of_locate hplace
  exact ⟨hfolder, (Except.ok.inj hchanged).symm⟩

/-- A file that has been written can be removed. -/
theorem Writable.remove {path : String} (h : store.Writable path)
    (hthere : (store.entry? (Place.ofPath path.toList)).isSome) :
    store.remove path = .ok (store.erase (Place.ofPath path.toList)) := by
  rw [Store.remove, onPath_eq_ok_iff]
  simp only [guard_eq_ok_iff, bind_eq_ok_iff]
  exact ⟨h.noNull, _, h.locate hthere, h.noFolder, rfl⟩

/-! ## Writing again -/

section

variable {bytes : List UInt8} (hplace : store.entry? place ≠ some .folder)
include hplace

theorem HasRoom.insert {q : Place} (h : store.HasRoom q) :
    (store.insert place (.file bytes)).HasRoom q :=
  ⟨h.short, fun hq => h.noFolder ((entry?_insert_eq_folder_iff hplace q).mp hq)⟩

/-- **The same paths are writable when a file has been written.** -/
theorem writable_insert_iff {path : String} :
    (store.insert place (.file bytes)).Writable path ↔ store.Writable path := by
  have hin : (∃ folder, (store.insert place (.file bytes)).followAll (Place.start path.toList)
        (pieces path.toList).dropLast = .ok folder ∧
          entry? (store.insert place (.file bytes)) folder = some .folder) ↔
      ∃ folder, store.followAll (Place.start path.toList) (pieces path.toList).dropLast =
        .ok folder ∧ store.entry? folder = some .folder := by
    refine exists_congr fun folder => ?_
    rw [entry?_insert_eq_folder_iff hplace]
    exact and_congr_left fun hfolder => followAll_insert_iff hplace hfolder
  have hfree : entry? (store.insert place (.file bytes)) (Place.ofPath path.toList) ≠ some .folder ↔
      store.entry? (Place.ofPath path.toList) ≠ some .folder :=
    not_congr (entry?_insert_eq_folder_iff hplace _)
  constructor
  · intro h
    exact ⟨⟨h.fits, hin.mp h.inFolder, h.isName, h.short⟩, h.noNull, hfree.mp h.noFolder⟩
  · intro h
    exact ⟨⟨h.fits, hin.mpr h.inFolder, h.isName, h.short⟩, h.noNull, hfree.mpr h.noFolder⟩

end

end Stratagem.Files.Store
