import Mathlib
import Stratagem.CommandLine.Command
import Stratagem.Proofs.CommandLine.Request
import Stratagem.Proofs.Node.Rendered
import Stratagem.Proofs.Source.Outcome
import Stratagem.Proofs.Text.Utf8

/-!
# How the command ends

A report on a text that draws nothing always comes to its end, and its result says whether the text
is a program (`Report.onText_result`): a program can be rendered in every form, and a text that is
none has a lexical or a syntax problem, which is reported.

So what the command returns for a file depends on the path and the bytes alone
(`command_on_file`). It returns one for a path that is refused and for a text that is no program,
and zero for a program. Bytes that are no text and a path that is none end it in a failure, and an
empty path counts as no path at all.
-/

namespace Stratagem

/-! ## Reports -/

namespace Report

/-- Chapters that can all be rendered end in no fault. -/
theorem chapters_snd_eq_none {cs : List (Bool × String × Except Node.RenderFault String)}
    (h : ∀ c ∈ cs, Succeeds c.2.2) : (chapters cs).2 = none := by
  induction cs with
  | nil => rfl
  | cons c cs ih =>
    obtain ⟨hfirst, hothers⟩ := List.forall_mem_cons.mp h
    obtain ⟨wanted, title, rendered⟩ := c
    obtain ⟨text, rfl⟩ : ∃ text, rendered = .ok text := hfirst
    cases wanted with
    | false => exact ih hothers
    | true => exact ih hothers

/-- **Every chapter on a well-typed program can be rendered.** -/
theorem programChapters_snd_eq_none (options : Options) {p : Program} (h : Node.AllWellTyped p) :
    (programChapters options p).2 = none := by
  refine chapters_snd_eq_none ?_
  simp only [List.forall_mem_cons, List.not_mem_nil, false_implies, implies_true, and_true]
  exact ⟨Program.outline_succeeds h, Program.source_succeeds h,
    (Program.data_succeeds h).map Datum.json⟩

/-- The report on a well-typed program comes to its end if nothing is to be drawn. -/
theorem onProgram_result {options : Options} (hdrawing : options.drawing = .absent)
    (tool : LayoutTool) (store : Files.Store) {p : Program} (h : Node.AllWellTyped p) :
    (onProgram options tool store p).result = .ok true := by
  have hchapters := programChapters_snd_eq_none options h
  unfold onProgram
  split
  next out fault hout => simp [hout] at hchapters
  next out hout => simp [Run.after, drawingPart, hdrawing, Datum.isNothing]

/-- **The report on a text comes to its end** if nothing is to be drawn, and says whether the text
is a program. -/
theorem onText_result {options : Options} (hdrawing : options.drawing = .absent)
    (tool : LayoutTool) (store : Files.Store) (text : String) :
    (onText options tool store text).result = .ok (parseText text).isOk := by
  unfold onText
  cases hscan : scan text with
  | error d =>
    rw [parseText_of_scan_error hscan]
    rfl
  | ok ts =>
    rcases parse_cases_of_scan hscan with ⟨p, hparse, hp⟩ | ⟨t, -, what, hparse⟩
    · rw [parseText_of_parse_ok hscan hparse]
      simp only [Run.after, onTokens, hparse]
      exact onProgram_result hdrawing tool store hp.wellTyped
    · rw [parseText_of_parse_error hscan hparse]
      simp only [Run.after, onTokens, hparse]
      rfl

end Report

namespace CommandLine

open Request

/-! ## Files -/

/-- A path that holds the null character is none. -/
theorem read_null (store : Files.Store) {path : String} (h : Char.ofNat 0 ∈ path.toList) :
    store.read path = .error .nullInPath := by
  rw [Files.Store.read, Files.Store.onPath, if_pos h]

/-- The text of a file as a program is read from it: every line ends with a line feed. -/
def lined (text : String) : String := String.ofList (Text.unifyNewlines text.toList)

/-- The bytes of a text are read as that text with its line ends unified. -/
theorem fileText_encode (text : String) : fileText (Text.Utf8.encode text) = .ok (lined text) := by
  rw [fileText, Text.Utf8.decode_eq_ok_iff.mpr rfl]
  rfl

/-- Bytes that are not those of any text cannot be read. -/
theorem fileText_malformed {bytes : List UInt8} (h : ∀ text, Text.Utf8.encode text ≠ bytes) :
    ∃ m, fileText bytes = .error m := by
  cases hdecode : Text.Utf8.decode bytes with
  | error m => exact ⟨m, by rw [fileText, hdecode]; rfl⟩
  | ok text => exact absurd (Text.Utf8.decode_eq_ok_iff.mp hdecode) (h text)

/-- What a request to read a file comes to: it reports on that file, unless the path is empty. -/
theorem carryOut_of_file {request : Request} (hrequest : request.Coherent)
    (hfile : .file ∈ request.given) (tool : LayoutTool) (store : Files.Store) (input : String) :
    (request.file = none ∨ request.file = some "" →
      (carryOut request tool store input).result = .ok (.returned 0)) ∧
    ∀ path, request.file = some path → path ≠ "" →
      carryOut request tool store input = reportFile request.options tool store path := by
  -- a dialogue would exclude the file
  have hinteractive : request.interactive = false :=
    hrequest.untouched .interactive (hrequest.compatible .file hfile .interactive (by decide))
  have hdialogue : ¬ request.interactive = true := by simp [hinteractive]
  constructor
  · intro hpath
    rw [carryOut, if_neg hdialogue]
    rcases hpath with hpath | hpath
    · rw [hpath]
    · rw [hpath]
      rfl
  · intro path hpath hne
    rw [carryOut, if_neg hdialogue, hpath]
    split
    next h => simp at h
    next h => exact absurd (Option.some.inj h) hne
    next other _ h => rw [Option.some.inj h]

/-- **How the command ends for a file** that nothing is drawn of, whatever else is asked for. It
returns one if the path is refused or the text of the file is no program, and zero for a program.
It fails on a path that is none and on bytes that are no text, and the empty path counts as no path
at all, though nothing can be read there. -/
theorem command_on_file {arguments : List String} {request : Request}
    (hread : Request.read arguments = .ok request) (hfile : .file ∈ request.given)
    (hdrawing : .drawing ∉ request.given) (input : String) (tool : LayoutTool)
    (store : Files.Store) :
    let result := (command arguments input tool store).result
    (request.file = none ∨ request.file = some "" → result = .ok (.returned 0)) ∧
    store.read "" = .error (.refused .notFound "") ∧
    ∀ path, request.file = some path → path ≠ "" →
      (Char.ofNat 0 ∈ path.toList → result = .error (.files .nullInPath)) ∧
      (∀ cause refused, store.read path = .error (.refused cause refused) →
        result = .ok (.returned 1)) ∧
      ∀ bytes, store.read path = .ok bytes →
        (∀ text, Text.Utf8.encode text = bytes →
          (∀ p, parseText (lined text) = .ok p → result = .ok (.returned 0)) ∧
          (∀ fault, parseText (lined text) = .error fault → result = .ok (.returned 1))) ∧
        ((∀ text, Text.Utf8.encode text ≠ bytes) → ∃ m, result = .error (.malformed m)) := by
  have hrequest : request.Coherent := coherent_of_read hread
  have hnothing : request.options.drawing = .absent := hrequest.untouched .drawing hdrawing
  obtain ⟨hempty, hreport⟩ := carryOut_of_file hrequest hfile tool store input
  have hcommand : command arguments input tool store = carryOut request tool store input := by
    rw [command, hread]
  intro result
  have hresult : result = (carryOut request tool store input).result := by
    rw [← hcommand]
  refine ⟨fun hpath => hresult.trans (hempty hpath), rfl, fun path hpath hne => ?_⟩
  rw [hreport path hpath hne] at hresult
  refine ⟨fun hnull => ?_, fun cause refused hrefused => ?_, fun bytes hbytes => ⟨?_, ?_⟩⟩
  · rw [hresult, reportFile, read_null store hnull]
  · rw [hresult, reportFile, hrefused]
  · rintro text rfl
    have htext : result = .ok (.returned (verdict (parseText (lined text)).isOk)) := by
      rw [hresult, reportFile, hbytes]
      simp only [fileText_encode, Run.map, Report.onText_result hnothing]
      rfl
    exact ⟨fun p hp => by rw [htext, hp]; rfl, fun fault hfault => by rw [htext, hfault]; rfl⟩
  · intro hmalformed
    obtain ⟨m, hm⟩ := fileText_malformed hmalformed
    refine ⟨m, ?_⟩
    rw [hresult, reportFile, hbytes]
    simp only [hm]

/-- A single file `p`. -/
def oneFile (bytes : List UInt8) : Files.Store := ⟨[(⟨.above 0, ["p"]⟩, .file bytes)]⟩

/-- A byte that starts no character ends the command in a failure; it returns zero for a program, one
for a missing file, and zero again for an empty path. -/
theorem command_on_oneFile :
    (∃ m, (command ["--file", "p"] "" .missing (oneFile [0xFF])).result = .error (.malformed m)) ∧
    (command ["--file", "p"] "" .missing (oneFile (Text.Utf8.encode "done"))).result =
      .ok (.returned 0) ∧
    (command ["--file", "p"] "" .missing ⟨[]⟩).result = .ok (.returned 1) ∧
    (command ["--file", ""] "" .missing ⟨[]⟩).result = .ok (.returned 0) := by
  have hread : Request.read ["--file", "p"] = .ok { file := some "p", given := [.file] } := by rfl
  have hempty : Request.read ["--file", ""] = .ok { file := some "", given := [.file] } := by rfl
  have hmalformed : ∀ text, Text.Utf8.encode text ≠ [0xFF] := by
    intro text htext
    have hdecode : Text.Utf8.decode [0xFF] = .ok text := Text.Utf8.decode_eq_ok_iff.mpr htext
    have hstray : Text.Utf8.decode [0xFF] = .error ⟨0, [0xFF], .start⟩ := by cbv
    rw [hstray] at hdecode
    simp at hdecode
  have hdone : parseText (lined "done") = .ok [.done] := by cbv
  have hstrayByte := command_on_file hread (by decide) (by decide) "" .missing (oneFile [0xFF])
  have hprogram := command_on_file hread (by decide) (by decide) "" .missing
    (oneFile (Text.Utf8.encode "done"))
  have hnoFile := command_on_file hread (by decide) (by decide) "" .missing ⟨[]⟩
  have hnoPath := command_on_file hempty (by decide) (by decide) "" .missing ⟨[]⟩
  refine ⟨?_, ?_, ?_, hnoPath.1 (.inr rfl)⟩
  · obtain ⟨-, -, hreads⟩ := hstrayByte.2.2 "p" rfl (by decide)
    exact (hreads [0xFF] rfl).2 hmalformed
  · obtain ⟨-, -, hreads⟩ := hprogram.2.2 "p" rfl (by decide)
    exact ((hreads _ rfl).1 "done" rfl).1 [.done] hdone
  · obtain ⟨-, hrefused, -⟩ := hnoFile.2.2 "p" rfl (by decide)
    exact hrefused .notFound "p" rfl

end CommandLine

end Stratagem
