import Stratagem.Proofs.Text.Classes
import Stratagem.Proofs.Text.Place

/-!
# Gaps

Between two tokens stands a gap: blanks, and comments that reach from a number sign to the end of
the line. `Gap gap rest` says so of a piece of text, where the text goes on with `rest` after it,
since a comment may end only where the line or the text ends.

`gapLength_append` is the completeness half: a gap before something that starts a token is exactly
what the scanner skips. `gap_of_gapLength` is the soundness half: what the scanner skips is a gap,
and what it stops at starts no further one.
-/

namespace Stratagem.Text

theorem isBlank_space : isBlank ' ' = true := by decide

theorem isBlank_newline : isBlank '\n' = true := by decide

/-- Whether a comment may end before `text`: the line ends there, or the text. -/
def EndsLine (text : List Char) : Prop := ∀ c ∈ text.head?, c = '\n'

/-- Whether nothing of a gap stands at the start of `text`. -/
def StartsNoGap (text : List Char) : Prop := ∀ c ∈ text.head?, isBlank c = false ∧ c ≠ '#'

/-- `Gap gap rest`: the text `gap`, followed by `rest`, consists of blanks and comments. -/
inductive Gap : (gap rest : List Char) → Prop
  | empty {rest : List Char} : Gap [] rest
  | blank {c : Char} {gap rest : List Char} (hc : isBlank c = true) (hgap : Gap gap rest) :
    Gap (c :: gap) rest
  | comment {body gap rest : List Char} (hbody : '\n' ∉ body) (hend : EndsLine (gap ++ rest))
    (hgap : Gap gap rest) : Gap ('#' :: (body ++ gap)) rest

/-- A gap stays one before another text that starts with the same character. -/
theorem Gap.congr {gap rest rest' : List Char} (h : Gap gap rest)
    (hhead : rest'.head? = rest.head?) : Gap gap rest' := by
  induction h with
  | empty => exact .empty
  | blank hc _ ih => exact .blank hc (ih hhead)
  | @comment body gap rest hbody hend _ ih =>
    have hsame : (gap ++ rest').head? = (gap ++ rest).head? := by
      rw [List.head?_append, List.head?_append, hhead]
    refine .comment hbody (fun c hc => hend c ?_) (ih hhead)
    rwa [hsame] at hc

/-- A gap in front of a gap. -/
theorem Gap.append {gap gap' rest : List Char} (h : Gap gap (gap' ++ rest)) (h' : Gap gap' rest) :
    Gap (gap ++ gap') rest := by
  generalize hall : gap' ++ rest = all at h
  induction h with
  | empty => exact h'
  | blank hc _ ih => exact .blank hc (ih hall)
  | @comment body gap _ hbody hend _ ih =>
    subst hall
    rw [List.cons_append, List.append_assoc]
    exact .comment hbody (by rwa [List.append_assoc]) (ih rfl)

/-- Where the line ends, it makes no difference to be in a comment. -/
theorem gapLength_of_endsLine {text : List Char} (h : EndsLine text) :
    gapLength true text = gapLength false text := by
  cases text with
  | nil => rfl
  | cons c rest =>
    have hc : c = '\n' := h c (by simp)
    subst hc
    simp [gapLength, isBlank_newline]

/-- The body of a comment is skipped as a whole. -/
theorem gapLength_comment (rest : List Char) : ∀ {body : List Char}, '\n' ∉ body →
    gapLength true (body ++ rest) = body.length + gapLength true rest
  | [], _ => by simp
  | c :: body, hbody => by
    simp only [List.mem_cons, not_or] at hbody
    have hc : decide (c ≠ '\n') = true := decide_eq_true (Ne.symm hbody.1)
    rw [List.cons_append, gapLength, hc, gapLength_comment rest hbody.2, List.length_cons]
    omega

/-- **A gap is skipped as a whole** if what follows starts a token or is nothing. -/
theorem gapLength_append {gap rest : List Char} (h : Gap gap rest) (hrest : StartsNoGap rest) :
    gapLength false (gap ++ rest) = gap.length := by
  induction h with
  | @empty rest =>
    cases rest with
    | nil => rfl
    | cons c rest =>
      obtain ⟨hblank, hsign⟩ := hrest c (by simp)
      simp [gapLength, hblank, hsign]
  | @blank c gap rest hc _ ih =>
    rw [List.cons_append, gapLength, if_pos hc, ih hrest, List.length_cons]
    omega
  | @comment body gap rest hbody hend _ ih =>
    have hblank : ¬ isBlank '#' = true := by decide
    rw [List.cons_append, gapLength, if_neg hblank, if_pos rfl, List.append_assoc,
      gapLength_comment _ hbody, gapLength_of_endsLine hend, ih hrest, List.length_cons,
      List.length_append]
    omega

/-- What the scanner skips of `text` while a comment is open: the rest of the comment and a gap. -/
private theorem gap_of_gapLength_aux : ∀ (text : List Char),
    (∃ gap rest, text = gap ++ rest ∧ gap.length = gapLength false text ∧ Gap gap rest ∧
      StartsNoGap rest) ∧
    (∃ body gap rest, text = body ++ gap ++ rest ∧
      (body ++ gap).length = gapLength true text ∧ '\n' ∉ body ∧ EndsLine (gap ++ rest) ∧
      Gap gap rest ∧ StartsNoGap rest)
  | [] => by
    have hnone : StartsNoGap [] := fun c hc => absurd hc (by simp)
    have hend : EndsLine [] := fun c hc => absurd hc (by simp)
    exact ⟨⟨[], [], rfl, rfl, .empty, hnone⟩, ⟨[], [], [], rfl, rfl, by simp, hend, .empty, hnone⟩⟩
  | c :: text => by
    obtain ⟨⟨gap, rest, htext, hlen, hgap, hrest⟩, body', gap', rest', htext', hlen', hbody', hend',
      hgap', hrest'⟩ := gap_of_gapLength_aux text
    constructor
    · by_cases hblank : isBlank c = true
      · refine ⟨c :: gap, rest, by rw [htext]; rfl, ?_, .blank hblank hgap, hrest⟩
        rw [gapLength, if_pos hblank, List.length_cons, hlen]
        omega
      · by_cases hsign : c = '#'
        · subst hsign
          refine ⟨'#' :: (body' ++ gap'), rest', by rw [htext']; rfl, ?_,
            .comment hbody' hend' hgap', hrest'⟩
          rw [gapLength, if_neg hblank, if_pos rfl, List.length_cons, hlen']
          omega
        · refine ⟨[], c :: text, rfl, ?_, .empty, ?_⟩
          · rw [gapLength, if_neg hblank, if_neg hsign]
            rfl
          · intro d hd
            obtain rfl : c = d := by simpa using hd
            exact ⟨Bool.eq_false_iff.mpr hblank, hsign⟩
    · by_cases hc : c = '\n'
      · -- the comment ends here, and its line feed belongs to the gap
        subst hc
        refine ⟨[], '\n' :: gap, rest, by rw [htext]; rfl, ?_, by simp, ?_,
          .blank isBlank_newline hgap, hrest⟩
        · simp only [gapLength, List.nil_append, List.length_cons, hlen]
          simp only [ne_eq, not_true_eq_false, decide_false]
          omega
        · intro d hd
          simpa using hd.symm
      · refine ⟨c :: body', gap', rest', by rw [htext']; rfl, ?_, ?_, hend', hgap', hrest'⟩
        · rw [gapLength, decide_eq_true hc, ← hlen', List.cons_append, List.length_cons]
          omega
        · simp [Ne.symm hc, hbody']

/-- **What the scanner skips is a gap**, and it stops where a token starts or the text ends. -/
theorem gap_of_gapLength (text : List Char) :
    ∃ gap rest, text = gap ++ rest ∧ gap.length = gapLength false text ∧ Gap gap rest ∧
      StartsNoGap rest :=
  (gap_of_gapLength_aux text).1

namespace Cursor

theorem skipGap_between {gap rest : List Char} (before : List Char) (h : Gap gap rest)
    (hrest : StartsNoGap rest) :
    (between before (gap ++ rest)).skipGap = between (before ++ gap) rest := by
  rw [skipGap, between_rest, gapLength_append h hrest, advanceBy_between]

end Cursor

end Stratagem.Text
