import Stratagem.Proofs.Text.Gap

/-!
# Trivia

Trivia is text that stands for itself as a gap, whatever comes behind it: blanks, and comments with
the end of their line. It may be put behind any other gap (`Gap.append_trivia`). That gap may be a
comment that goes to the end of the text, and then the trivia goes on with the comment up to its own
first line feed (`Trivia.cut`). The other way round, a gap at the end of a text turns into trivia when
a line feed is put behind it (`Gap.trivia_of_end`).
-/

namespace Stratagem.Text

/-- Text made of blanks and of comments that end with their line. -/
inductive Trivia : List Char → Prop
  | empty : Trivia []
  | blank {c : Char} {text : List Char} (hc : isBlank c = true) (htext : Trivia text) :
    Trivia (c :: text)
  | comment {body text : List Char} (hbody : '\n' ∉ body) (htext : Trivia text) :
    Trivia ('#' :: (body ++ '\n' :: text))

namespace Trivia

variable {text : List Char}

theorem gap (h : Trivia text) (rest : List Char) : Gap text rest := by
  induction h with
  | empty => exact .empty
  | blank hc _ ih => exact .blank hc ih
  | comment hbody _ ih =>
    refine .comment hbody (fun c hc => ?_) (.blank isBlank_newline ih)
    simpa using hc.symm

/-- Trivia starts with a blank or a number sign. -/
theorem head (h : Trivia text) : ∀ c ∈ text.head?, isBlank c = true ∨ c = '#' := by
  intro c hc
  cases h with
  | empty => simp at hc
  | @blank d _ hd _ =>
    obtain rfl : d = c := by simpa using hc
    exact .inl hd
  | comment => exact .inr (by simpa using hc.symm)

/-- **Trivia is cut at its first line feed**: what stands before could be part of a comment, and what
stands behind is trivia again. -/
theorem cut (h : Trivia text) :
    ∃ body behind, text = body ++ behind ∧ '\n' ∉ body ∧ EndsLine behind ∧ Trivia behind := by
  induction h with
  | empty => exact ⟨[], [], rfl, by simp, fun c hc => absurd hc (by simp), .empty⟩
  | @blank c text hc htext ih =>
    by_cases hnewline : c = '\n'
    · subst hnewline
      exact ⟨[], '\n' :: text, rfl, by simp, fun d hd => by simpa using hd.symm, .blank hc htext⟩
    · obtain ⟨body, behind, rfl, hbody, hend, hbehind⟩ := ih
      refine ⟨c :: body, behind, rfl, ?_, hend, hbehind⟩
      simp [Ne.symm hnewline, hbody]
  | @comment body text hbody htext _ =>
    refine ⟨'#' :: body, '\n' :: text, rfl, by simp [hbody], fun d hd => by simpa using hd.symm,
      .blank isBlank_newline htext⟩

end Trivia

/-- **A gap stays one with trivia behind it.** -/
theorem Gap.append_trivia {gap rest trivia : List Char} (h : Gap gap rest)
    (htrivia : Trivia trivia) : Gap (gap ++ trivia) rest := by
  induction h with
  | @empty rest => exact htrivia.gap rest
  | blank hc _ ih => exact .blank hc ih
  | @comment body gap rest hbody hend hgap ih =>
    rw [List.cons_append, List.append_assoc]
    cases gap with
    | cons c gap => exact .comment hbody hend ih
    | nil =>
      -- the line has not ended, so the comment goes on
      obtain ⟨tail, behind, rfl, htail, hbehind, htrivia'⟩ := htrivia.cut
      have hbody' : '\n' ∉ body ++ tail := by simp [hbody, htail]
      have hend' : EndsLine (behind ++ rest) := by
        cases behind with
        | nil => exact hend
        | cons c behind => exact hbehind
      rw [List.nil_append, ← List.append_assoc]
      exact .comment hbody' hend' (htrivia'.gap rest)

/-- **A gap at the end of a text is trivia once its line is ended.** -/
theorem Gap.trivia_of_end {gap rest : List Char} (h : Gap gap rest) (hrest : rest = []) :
    Trivia (gap ++ ['\n']) := by
  induction h with
  | empty => exact .blank isBlank_newline .empty
  | blank hc _ ih => exact .blank hc (ih hrest)
  | @comment body gap rest hbody hend _ ih =>
    have htrivia := ih hrest
    rw [List.cons_append, List.append_assoc]
    cases gap with
    | nil => exact .comment hbody .empty
    | cons c gap =>
      -- the comment ends with its line, and what is behind that line feed is trivia
      obtain rfl : c = '\n' := hend c (by simp)
      cases htrivia with
      | blank _ htext => exact .comment hbody htext

end Stratagem.Text
