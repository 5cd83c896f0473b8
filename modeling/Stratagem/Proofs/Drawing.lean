import Mathlib
import Stratagem.Proofs.Files.Folder
import Stratagem.Proofs.Graph.Tree
import Stratagem.Proofs.Report.Failure

/-!
# The files of a drawing

A drawing at a path leaves its traces at three places: at the path itself, where the text of the graph
is saved, and beside it, where the layout tool puts the drawing or, if it draws nothing, a copy of the
text is kept. All other files stay as they are, whatever happens (`file?_drawText_of_ne`).

The place of the path is one of the three although the drawing is to stand beside it. What was there
before is lost: removed after a tool that works, and replaced by the text of the graph otherwise
(`drawText_of_working`, `drawText_of_idle`). Only where nothing was, and with a tool that works, is the
drawing all that is new.
-/

namespace Stratagem.Drawing

open Files

variable {store : Store} {folder : List Char} {path format text : String} {tool : LayoutTool}

/-! ## Writing in a folder -/

theorem writeIn_of_made (h : (store.prepared folder).fault = none) :
    writeIn store folder path text = (store.prepared folder).store.attempt
      ((store.prepared folder).store.write path (Text.Utf8.encode text)) := by
  unfold Store.prepared at h ⊢
  unfold writeIn
  simp only [h]

theorem writeIn_of_not_made {fault : Files.Fault} (h : (store.prepared folder).fault = some fault) :
    writeIn store folder path text = store.prepared folder := by
  unfold Store.prepared at h ⊢
  unfold writeIn
  simp only [h]

/-- **A file is written** if its folder can be made and its path is then writable. -/
theorem writeIn_of_writable (hmade : (store.prepared folder).fault = none)
    (h : Store.Writable (store.prepared folder).store path) :
    writeIn store folder path text =
      ⟨(store.prepared folder).store.insert (Place.ofPath path.toList)
        (.file (Text.Utf8.encode text)), none⟩ := by
  have hwrite : (store.prepared folder).store.write path (Text.Utf8.encode text) = .ok _ :=
    Store.write_eq_ok_iff.mpr ⟨h, rfl⟩
  rw [writeIn_of_made hmade, hwrite]
  rfl

/-- Otherwise there is a fault and no file is touched. -/
theorem writeIn_of_not_writable
    (h : ¬ ((store.prepared folder).fault = none ∧ (store.prepared folder).store.Writable path)) :
    (∃ fault, (writeIn store folder path text).fault = some fault) ∧
      (writeIn store folder path text).store.file? = store.file? := by
  have hfiles := Store.file?_prepared store folder
  cases hmade : (store.prepared folder).fault with
  | some fault =>
    rw [writeIn_of_not_made hmade]
    exact ⟨⟨fault, hmade⟩, hfiles⟩
  | none =>
    rw [writeIn_of_made hmade]
    cases hwrite : (store.prepared folder).store.write path (Text.Utf8.encode text) with
    | error fault => exact ⟨⟨fault, rfl⟩, hfiles⟩
    | ok changed => exact absurd ⟨hmade, (Store.write_eq_ok_iff.mp hwrite).1⟩ h

/-- **Writing a file touches no file at another place.** -/
theorem file?_writeIn_of_ne {q : Place} (hq : q ≠ Place.ofPath path.toList) :
    (writeIn store folder path text).store.file? q = store.file? q := by
  by_cases h : (store.prepared folder).fault = none ∧ (store.prepared folder).store.Writable path
  · rw [writeIn_of_writable h.1 h.2, Store.file?_insert_file h.2.noFolder,
      Function.update_of_ne hq, Store.file?_prepared]
  · rw [(writeIn_of_not_writable h).2]

/-! ## The layout tool -/

/-- No format has a slash. -/
theorem slash_not_mem_of_mem_formats (h : format ∈ formats) : '/' ∉ ("." ++ format).toList := by
  have hall : ∀ format ∈ formats, '/' ∉ ("." ++ format).toList := by decide
  exact hall format h

/-- A drawing is not at the path itself. -/
theorem beside_ne (hformat : format ∈ formats)
    (hname : Place.IsName ((pieces path.toList).getLastD [])) :
    Place.ofPath (path ++ ("." ++ format)).toList ≠ Place.ofPath path.toList := by
  rw [String.toList_append]
  exact Place.ofPath_append_ne hname (slash_not_mem_of_mem_formats hformat) (by simp)

/-- A tool that does not work draws nothing. -/
theorem layOut_of_idle (h : ∀ output, tool ≠ .working output) :
    ∃ fault, layOut tool store path format = .ok (.error fault) := by
  cases tool with
  | missing => exact ⟨_, rfl⟩
  | failing status complaint => exact ⟨_, rfl⟩
  | working output => exact absurd rfl (h output)

/-- What a tool writes that works. -/
def drawn (output : List String → String) (path format : String) : List UInt8 :=
  Text.Utf8.encode (output (toolArguments format ((steps path).getLastD "")))

/-- **A tool that works puts the drawing beside the path and removes what is at the path.** -/
theorem layOut_eq_ok {changed : Store} (hformat : format ∈ formats)
    (h : layOut tool store path format = .ok (.ok changed)) :
    ∃ output, tool = .working output ∧
      changed.file? = Function.update (Function.update store.file?
        (Place.ofPath (path ++ ("." ++ format)).toList) (some (drawn output path format)))
        (Place.ofPath path.toList) none := by
  cases tool with
  | missing => cases h
  | failing status complaint => cases h
  | working output =>
    refine ⟨output, rfl, ?_⟩
    unfold layOut at h
    obtain ⟨beside, hbeside, h⟩ := bind_eq_ok_iff.mp h
    obtain ⟨bare, hbare, hchanged⟩ := bind_eq_ok_iff.mp h
    obtain ⟨-, hroom, rfl⟩ :=
      (Store.writeBeside_eq_ok_iff (slash_not_mem_of_mem_formats hformat)).mp hbeside
    obtain ⟨hfolder, rfl⟩ := Store.remove_eq_ok hbare
    cases hchanged
    rw [Store.file?_erase hfolder, Store.file?_insert_file hroom.noFolder]
    rfl

/-- **And it does so** if the path is writable, something is there and the drawing has room. -/
theorem exists_layOut (output : List String → String) (hformat : format ∈ formats)
    (h : store.Writable path) (hthere : (store.entry? (Place.ofPath path.toList)).isSome)
    (hroom : store.HasRoom (Place.ofPath (path ++ ("." ++ format)).toList)) :
    ∃ changed, layOut (.working output) store path format = .ok (.ok changed) := by
  have hbeside : store.writeBeside path ("." ++ format) (drawn output path format) = .ok _ :=
    (Store.writeBeside_eq_ok_iff (slash_not_mem_of_mem_formats hformat)).mpr
      ⟨⟨h.noNull, h.toNames⟩, hroom, rfl⟩
  have hstill : (Store.entry? (store.insert (Place.ofPath (path ++ ("." ++ format)).toList)
      (.file (drawn output path format))) (Place.ofPath path.toList)).isSome := by
    rw [Store.entry?_insert hroom.noFolder]
    split
    · rfl
    · exact hthere
  have hremove := ((Store.writable_insert_iff hroom.noFolder).mpr h).remove hstill
  exact ⟨_, bind_eq_ok_iff.mpr ⟨_, hbeside, bind_eq_ok_iff.mpr ⟨_, hremove, rfl⟩⟩⟩

/-! ## Drawing a text -/

/-- **A drawing touches no file but those at its path, beside it under the format, and beside it as a
copy of the text.** -/
theorem file?_drawText_of_ne (hformat : format ∈ formats) {q : Place}
    (hplace : q ≠ Place.ofPath path.toList)
    (hdrawn : q ≠ Place.ofPath (path ++ ("." ++ format)).toList)
    (hcopy : q ≠ Place.ofPath (copyPath path).toList) :
    (drawText tool store path format text).store.file? q = store.file? q := by
  have hsave : (save store path text).store.file? q = store.file? q := file?_writeIn_of_ne hplace
  unfold drawText
  dsimp only
  split
  · exact hsave
  · split
    · exact hsave
    next changed hdraw =>
      obtain ⟨output, -, hfiles⟩ := layOut_eq_ok hformat hdraw
      show changed.file? q = _
      rw [hfiles, Function.update_of_ne hplace, Function.update_of_ne hdrawn, hsave]
    next fault =>
      have hkeep : (keepCopy (save store path text).store path text).store.file? q =
          store.file? q := by
        unfold keepCopy
        rw [file?_writeIn_of_ne hcopy, hsave]
      split
      · exact hkeep
      · exact hkeep

/-- What is drawn becomes the store, and what is not drawn is kept as a copy. -/
theorem drawText_of_saved (hsave : (save store path text).fault = none) :
    (∀ changed, layOut tool (save store path text).store path format = .ok (.ok changed) →
      (drawText tool store path format text).fault = none ∧
        (drawText tool store path format text).store = changed) ∧
    ∀ fault, layOut tool (save store path text).store path format = .ok (.error fault) →
      (drawText tool store path format text).fault =
          (keepCopy (save store path text).store path text).fault.map .files ∧
        (drawText tool store path format text).store =
          (keepCopy (save store path text).store path text).store := by
  unfold drawText
  simp only [hsave]
  constructor
  · intro changed hdraw
    rw [hdraw]
    exact ⟨rfl, rfl⟩
  · intro fault hdraw
    rw [hdraw]
    cases hkept : (keepCopy (save store path text).store path text).fault with
    | none => exact ⟨rfl, rfl⟩
    | some failure => exact ⟨rfl, rfl⟩

/-! ## At a path that is accepted -/

section

variable (text) (hpath : store.Accepts path)
include hpath

/-- The text of a graph is saved at the path. -/
theorem save_of_accepts : save store path text =
    ⟨(store.prepared (parentPath path.toList)).store.insert (Place.ofPath path.toList)
      (.file (Text.Utf8.encode text)), none⟩ :=
  writeIn_of_writable hpath.prepared hpath.writable

theorem file?_save : (save store path text).store.file? =
    Function.update store.file? (Place.ofPath path.toList) (some (Text.Utf8.encode text)) := by
  rw [save_of_accepts text hpath, Store.file?_insert_file hpath.writable.noFolder,
    Store.file?_prepared]

/-- The same paths are writable behind the folders as behind the text, the path itself included. -/
theorem writable_save_iff {other : String} : (save store path text).store.Writable other ↔
    (store.prepared (parentPath path.toList)).store.Writable other := by
  rw [save_of_accepts text hpath]
  exact Store.writable_insert_iff hpath.writable.noFolder

/-- The folders are there when a copy is kept. -/
theorem prepared_save : (save store path text).store.prepared
      (if (parentPath path.toList).isEmpty then ['.'] else parentPath path.toList) =
    ⟨(save store path text).store, none⟩ := by
  have hsaved := (writable_save_iff text hpath).mpr hpath.writable
  apply Store.prepared_of_isFolder
  split
  · exact Store.isFolder_dot
  next hne => exact hsaved.toNames.isFolder_parentPath (by simpa using hne)

/-- So a copy is kept exactly if its path was writable. -/
theorem keepCopy_save :
    ((store.prepared (parentPath path.toList)).store.Writable (copyPath path) →
      keepCopy (save store path text).store path text =
        ⟨(save store path text).store.insert (Place.ofPath (copyPath path).toList)
          (.file (Text.Utf8.encode text)), none⟩) ∧
    (¬ (store.prepared (parentPath path.toList)).store.Writable (copyPath path) →
      (∃ fault, (keepCopy (save store path text).store path text).fault = some fault) ∧
        (keepCopy (save store path text).store path text).store.file? =
          (save store path text).store.file?) := by
  have hprepared := prepared_save text hpath
  rw [← writable_save_iff text hpath]
  unfold keepCopy
  constructor
  · intro hcopy
    rw [writeIn_of_writable (by rw [hprepared]) (by rw [hprepared]; exact hcopy), hprepared]
  · intro hcopy
    exact writeIn_of_not_writable (by rw [hprepared]; exact fun h => hcopy h.2)

/-- **With a tool that works, the drawing is all that is left.** What was at the path is removed. -/
theorem drawText_of_working (output : List String → String) (hformat : format ∈ formats)
    (hroom : (store.prepared (parentPath path.toList)).store.HasRoom
      (Place.ofPath (path ++ ("." ++ format)).toList)) :
    (drawText (.working output) store path format text).fault = none ∧
      (drawText (.working output) store path format text).store.file? =
        Function.update (Function.update store.file?
          (Place.ofPath (path ++ ("." ++ format)).toList) (some (drawn output path format)))
          (Place.ofPath path.toList) none := by
  have hsave : (save store path text).fault = none := by rw [save_of_accepts text hpath]
  have hsaved := (writable_save_iff text hpath).mpr hpath.writable
  have hthere : ((save store path text).store.entry? (Place.ofPath path.toList)).isSome := by
    rw [save_of_accepts text hpath, Store.entry?_insert hpath.writable.noFolder, if_pos rfl]
    rfl
  have hspace : (save store path text).store.HasRoom
      (Place.ofPath (path ++ ("." ++ format)).toList) := by
    rw [save_of_accepts text hpath]
    exact hroom.insert hpath.writable.noFolder
  obtain ⟨changed, hdraw⟩ := exists_layOut output hformat hsaved hthere hspace
  obtain ⟨hfault, hstore⟩ := (drawText_of_saved hsave).1 changed hdraw
  obtain ⟨_, htool, hfiles⟩ := layOut_eq_ok hformat hdraw
  cases htool
  refine ⟨hfault, ?_⟩
  rw [hstore, hfiles, file?_save text hpath,
    Function.update_comm (beside_ne hformat hsaved.isName).symm, Function.update_idem]

/-- **With a tool that does not work, the text of the graph stays at the path**, and a copy of it is
kept beside, or refused. -/
theorem drawText_of_idle (htool : ∀ output, tool ≠ .working output) :
    ((store.prepared (parentPath path.toList)).store.Writable (copyPath path) →
      (drawText tool store path format text).fault = none ∧
        (drawText tool store path format text).store.file? =
          Function.update (Function.update store.file?
            (Place.ofPath path.toList) (some (Text.Utf8.encode text)))
            (Place.ofPath (copyPath path).toList) (some (Text.Utf8.encode text))) ∧
    (¬ (store.prepared (parentPath path.toList)).store.Writable (copyPath path) →
      (∃ fault, (drawText tool store path format text).fault = some (.files fault)) ∧
        (drawText tool store path format text).store.file? =
          Function.update store.file?
            (Place.ofPath path.toList) (some (Text.Utf8.encode text))) := by
  have hsave : (save store path text).fault = none := by rw [save_of_accepts text hpath]
  obtain ⟨fault, hdraw⟩ := layOut_of_idle htool
  obtain ⟨hfault, hstore⟩ := (drawText_of_saved hsave).2 fault hdraw
  obtain ⟨hkept, hrefused⟩ := keepCopy_save text hpath
  rw [hfault, hstore, ← file?_save text hpath]
  constructor
  · intro hcopy
    rw [hkept hcopy, Store.file?_insert_file ((writable_save_iff text hpath).mpr hcopy).noFolder]
    exact ⟨rfl, rfl⟩
  · intro hcopy
    obtain ⟨⟨failure, hfailure⟩, hfiles⟩ := hrefused hcopy
    rw [hfailure, hfiles]
    exact ⟨⟨failure, rfl⟩, rfl⟩

end

end Stratagem.Drawing

namespace Stratagem.Report

open Files Drawing

/-! ## In a report -/

section

variable {options : Options} {p : Program} {path format dot : String} (tool : LayoutTool)
  (store : Store) (hdrawing : options.drawing = .text path)
include hdrawing

theorem drawingPart_of_no_path (hpath : path = "") :
    drawingPart options tool store p = ⟨.ok true, "", "", store⟩ := by
  have hnone : (Datum.text path).isNothing = true := by rw [hpath]; rfl
  rw [drawingPart, hdrawing, if_pos hnone]

variable (hpath : path ≠ "") (hformat : options.format = .text format) (hdot : p.dot = .ok dot)
include hpath hformat hdot

/-- A format that is none is refused before anything is written. -/
theorem drawingPart_of_unknown (h : String.ofList (Text.lower format.toList) ∉ formats) :
    drawingPart options tool store p =
      ⟨.error (.drawing (.unknownFormat (String.ofList (Text.lower format.toList)))), "", "",
        store⟩ := by
  have hsome : ¬ (Datum.text path).isNothing = true := by simpa [Datum.isNothing] using hpath
  have hdraw : draw tool store (.text path) (.text format) p =
      ⟨some (.unknownFormat (String.ofList (Text.lower format.toList))), "", "", store⟩ := by
    unfold draw
    rw [hdot]
    exact if_pos h
  rw [drawingPart, hdrawing, if_neg hsome, hformat, hdraw]

/-- Otherwise the text of the graph is drawn at the path, and the report fails if that fails. -/
theorem drawingPart_of_known (h : String.ofList (Text.lower format.toList) ∈ formats) :
    let outcome := drawText tool store path (String.ofList (Text.lower format.toList)) dot
    (drawingPart options tool store p).store = outcome.store ∧
      (outcome.fault = none → (drawingPart options tool store p).result = .ok true) ∧
      ∀ fault, outcome.fault = some fault →
        (drawingPart options tool store p).result = .error (.drawing fault) := by
  intro outcome
  have hsome : ¬ (Datum.text path).isNothing = true := by simpa [Datum.isNothing] using hpath
  have hdraw : draw tool store (.text path) (.text format) p = outcome := by
    unfold draw
    rw [hdot]
    exact if_neg (not_not.mpr h)
  rw [drawingPart, hdrawing, if_neg hsome, hformat, hdraw]
  dsimp only
  cases hfault : outcome.fault with
  | none => simp
  | some fault => simp

end

/-- **A drawing costs what is at its path.** Whatever is drawn, and whatever the layout tool does, only
three places can change: the path itself, the path with the format and the path with `.dot`. An unknown
format is refused and nothing changes at all. If the path is accepted, then with a tool that works the
drawing is beside the path and nothing is at it any more, so the drawing is all that is new only where
no file was; with a tool that is missing or fails, the text of the graph is at the path, whatever was
there before, and a copy beside it, or the copy is refused and the report fails. -/
theorem onText_drawing_files (options : Options) (tool : LayoutTool) (store : Store)
    {text path format : String} {p : Program} (h : parseText text = .ok p)
    (hdrawing : options.drawing = .text path) (hformat : options.format = .text format) :
    let name := String.ofList (Text.lower format.toList)
    let run := onText options tool store text
    let made := (store.prepared (parentPath path.toList)).store
    let place := Place.ofPath path.toList
    let beside := Place.ofPath (path ++ ("." ++ name)).toList
    let copy := Place.ofPath (path ++ ".dot").toList
    (∀ q, q ≠ place → q ≠ beside → q ≠ copy → run.store.file? q = store.file? q) ∧
    (path ≠ "" → name ∉ formats →
      run.result = .error (.drawing (.unknownFormat name)) ∧ run.store = store) ∧
    (store.Accepts path → name ∈ formats → ∃ dot, p.dot = .ok dot ∧
      (∀ output, tool = .working output → made.HasRoom beside →
        run.result = .ok true ∧
        run.store.file? = Function.update (Function.update store.file?
          beside (some (drawn output path name))) place none ∧
        (store.file? place = none →
          run.store.file? = Function.update store.file? beside (some (drawn output path name)))) ∧
      ((∀ output, tool ≠ .working output) →
        (made.Writable (path ++ ".dot") →
          run.result = .ok true ∧
          run.store.file? = Function.update (Function.update store.file?
            place (some (Text.Utf8.encode dot))) copy (some (Text.Utf8.encode dot))) ∧
        (¬ made.Writable (path ++ ".dot") →
          (∃ fault, run.result = .error (.drawing (.files fault))) ∧
          run.store.file? = Function.update store.file?
            place (some (Text.Utf8.encode dot))))) := by
  intro name run made place beside copy
  obtain ⟨vs, hvs, -⟩ := Graph.exists_vertices (canonical_of_parseText h).wellTyped
  have hdot : p.dot = .ok (Graph.text vs) := by rw [Program.dot, hvs]; rfl
  have hstore : run.store = (drawingPart options tool store p).store := by
    show (onText options tool store text).store = _
    rw [onText_of_program options tool store h, Run.after]
  have hresult : run.result = (drawingPart options tool store p).result := by
    show (onText options tool store text).result = _
    rw [onText_of_program options tool store h, Run.after]
  refine ⟨fun q hplace hbeside hcopy => ?_, fun hpath hname => ?_, fun haccepts hname =>
    ⟨Graph.text vs, hdot, fun output htool hroom => ?_, fun htool => ?_⟩⟩
  · by_cases hpath : path = ""
    · rw [hstore, drawingPart_of_no_path tool store hdrawing hpath]
    · by_cases hname : name ∈ formats
      · obtain ⟨hdraw, -, -⟩ :=
          drawingPart_of_known tool store hdrawing hpath hformat hdot hname
        rw [hstore, hdraw, file?_drawText_of_ne hname hplace hbeside hcopy]
      · rw [hstore, drawingPart_of_unknown tool store hdrawing hpath hformat hdot hname]
  · rw [hstore, hresult, drawingPart_of_unknown tool store hdrawing hpath hformat hdot hname]
    exact ⟨rfl, rfl⟩
  · obtain ⟨hdraw, hok, -⟩ := drawingPart_of_known tool store hdrawing
      haccepts.writable.ne_empty hformat hdot hname
    subst htool
    obtain ⟨hfault, hfiles⟩ := drawText_of_working (Graph.text vs) haccepts output hname hroom
    rw [hstore, hresult, hdraw, hok hfault, hfiles]
    refine ⟨rfl, rfl, fun hnone => ?_⟩
    rw [Function.update_comm (beside_ne hname haccepts.writable.isName), ← hnone,
      Function.update_eq_self]
  · obtain ⟨hdraw, hok, hfails⟩ := drawingPart_of_known tool store hdrawing
      haccepts.writable.ne_empty hformat hdot hname
    obtain ⟨hkept, hrefused⟩ := drawText_of_idle (Graph.text vs) haccepts htool
    rw [hstore, hresult, hdraw]
    constructor
    · intro hcopy
      obtain ⟨hfault, hfiles⟩ := hkept hcopy
      exact ⟨hok hfault, hfiles⟩
    · intro hcopy
      obtain ⟨⟨fault, hfault⟩, hfiles⟩ := hrefused hcopy
      exact ⟨⟨fault, hfails _ hfault⟩, hfiles⟩

/-- A drawing at the name of a file. -/
def drawnOver : Options := { outline := false, drawing := .text "out" }

/-- A store with one file, which has that name. -/
def oneFile : Store := ⟨[(⟨.above 0, ["out"]⟩, .file [0])]⟩

/-- A tool that writes its arguments. -/
def echo (arguments : List String) : String := " ".intercalate arguments ++ "\n"

/-- The file is removed with a tool that works, and holds the graph without one. -/
theorem onText_drawnOver_oneFile :
    let worked := onText drawnOver (.working echo) oneFile "done"
    let kept := onText drawnOver .missing oneFile "done"
    oneFile.Accepts "out" ∧ oneFile.file? (Place.ofPath "out".toList) = some [0] ∧
    worked.result = .ok true ∧ worked.store.file? (Place.ofPath "out".toList) = none ∧
    worked.store.file? (Place.ofPath "out.svg".toList) = some (drawn echo "out" "svg") ∧
    ∃ dot, Program.dot [.done] = .ok dot ∧ kept.result = .ok true ∧
      kept.store.file? (Place.ofPath "out".toList) = some (Text.Utf8.encode dot) ∧
      kept.store.file? (Place.ofPath "out.dot".toList) = some (Text.Utf8.encode dot) := by
  intro worked kept
  have hparse : parseText "done" = .ok [.done] := by cbv
  have hroom : ∀ path ∈ ["out", "out.svg", "out.dot"],
      oneFile.HasRoom (Place.ofPath path.toList) := by
    intro path hpath
    have hplaces : ∀ path ∈ ["out", "out.svg", "out.dot"],
        ¬ Store.maxNameLength < ((Place.ofPath path.toList).names.getLastD "").utf8ByteSize ∧
          oneFile.entry? (Place.ofPath path.toList) ≠ some .folder := by decide
    exact ⟨(hplaces path hpath).1, (hplaces path hpath).2⟩
  have haccepts : oneFile.Accepts "out" :=
    Store.accepts_of_name (by decide) (by decide) (by decide) (hroom _ (by decide))
  have hmade : (oneFile.prepared (parentPath "out".toList)).store = oneFile := by
    rw [Store.parentPath_of_not_mem (by decide)]
    rfl
  have hidle : ∀ output, LayoutTool.missing ≠ .working output := by
    intro output h
    cases h
  have hname : String.ofList (Text.lower "svg".toList) = "svg" := by decide
  obtain ⟨-, -, hworks⟩ :=
    onText_drawing_files drawnOver (.working echo) oneFile hparse rfl rfl
  obtain ⟨-, -, hidles⟩ := onText_drawing_files drawnOver .missing oneFile hparse rfl rfl
  rw [hname, hmade] at hworks hidles
  obtain ⟨-, -, hworks, -⟩ := hworks haccepts (by decide)
  obtain ⟨dot, hdot, -, hidles⟩ := hidles haccepts (by decide)
  obtain ⟨hresult, hfiles, -⟩ := hworks echo rfl (hroom _ (by decide))
  obtain ⟨hresult', hfiles'⟩ := (hidles hidle).1
    (Store.writable_of_name (by decide) (by decide) (by decide) (hroom _ (by decide)))
  refine ⟨haccepts, by decide, hresult, ?_, ?_, dot, hdot, hresult', ?_, ?_⟩
  · show (onText drawnOver (.working echo) oneFile "done").store.file? _ = _
    rw [hfiles, Function.update_self]
  · show (onText drawnOver (.working echo) oneFile "done").store.file? _ = _
    rw [hfiles, Function.update_of_ne (by decide)]
    exact Function.update_self ..
  · show (onText drawnOver .missing oneFile "done").store.file? _ = _
    rw [hfiles', Function.update_of_ne (by decide), Function.update_self]
  · show (onText drawnOver .missing oneFile "done").store.file? _ = _
    rw [hfiles']
    exact Function.update_self ..

end Stratagem.Report
