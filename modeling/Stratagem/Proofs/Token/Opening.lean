import Stratagem.Proofs.Token.Tokenization

/-!
# The opening of a text

A scan that is cut short behind a token has read an opening of the text: a gap and a lexeme, a gap
and a lexeme, and so on. `Opening before front rest us` says so of `front`, where the text goes on
with `rest`.

A scan can be taken up again behind any opening (`Opening.append`), and every token of a text ends
one (`Tokenization.split`). What comes behind an opening matters only in so far as it might extend
its last lexeme (`Opening.congr`), so openings are where texts are cut, changed and joined.
-/

namespace Stratagem

open Text

/-- `Opening before front rest us`: the text `front`, which stands after `before` and goes on with
`rest`, consists of gaps and lexemes up to behind a lexeme, and `us` are their tokens. -/
inductive Opening : (before front rest : List Char) → List Token → Prop
  | nil {before rest : List Char} : Opening before [] rest []
  | cons {before gap lexeme front rest : List Char} {kind : Token.Kind} {value : Option Int}
    {us : List Token} (hgap : Gap gap (lexeme ++ (front ++ rest)))
    (hlexeme : Lexeme lexeme kind value) (hrest : Unextended lexeme (front ++ rest))
    (hus : Opening (before ++ gap ++ lexeme) front rest us) :
    Opening before (gap ++ (lexeme ++ front)) rest
      (tokenAfter (before ++ gap) kind lexeme value :: us)

/-- Before a lexeme a gap does not depend on what comes behind the lexeme. -/
theorem Text.Gap.before_lexeme {gap lexeme rest : List Char} {kind : Token.Kind}
    {value : Option Int} (h : Gap gap (lexeme ++ rest)) (hlexeme : Lexeme lexeme kind value)
    (rest' : List Char) : Gap gap (lexeme ++ rest') := by
  obtain ⟨c, run, rfl⟩ := List.exists_cons_of_ne_nil hlexeme.ne_nil
  exact h.congr rfl

namespace Opening

variable {before front rest : List Char} {us : List Token}

/-- **Behind an opening the scan goes on** as on a text of its own. -/
theorem append (h : Opening before front rest us) {ws : List Token}
    (hws : Tokenization (before ++ front) rest ws) :
    Tokenization before (front ++ rest) (us ++ ws) := by
  induction h with
  | nil => simpa using hws
  | @cons before gap lexeme front rest kind value us hgap hlexeme hrest _ ih =>
    have hothers := ih (by simpa using hws)
    have hwhole := Tokenization.token hgap hlexeme hrest hothers
    simpa using hwhole

/-- **An opening stays one before another text** that extends no lexeme. -/
theorem congr (h : Opening before front rest us) {rest' : List Char}
    (hrest' : ∀ lexeme, Unextended lexeme rest → Unextended lexeme rest') :
    Opening before front rest' us := by
  induction h with
  | nil => exact .nil
  | @cons before gap lexeme front rest kind value us hgap hlexeme hrest _ ih =>
    have hunextended : Unextended lexeme (front ++ rest') := by
      cases front with
      | nil => exact hrest' lexeme hrest
      | cons => exact hrest
    exact .cons (hgap.before_lexeme hlexeme _) hlexeme hunextended (ih hrest')

end Opening

/-- **Every list of tokens of a text ends an opening**, behind which the others are scanned. -/
theorem Tokenization.split {before text : List Char} {us ws : List Token}
    (h : Tokenization before text (us ++ ws)) (hws : ws ≠ []) :
    ∃ front rest, text = front ++ rest ∧ Opening before front rest us ∧
      Tokenization (before ++ front) rest ws := by
  induction us generalizing before text with
  | nil => exact ⟨[], text, rfl, .nil, by simpa using h⟩
  | cons u us ih =>
    rw [List.cons_append] at h
    generalize hall : u :: (us ++ ws) = all at h
    cases h with
    | finish => simp [hws] at hall
    | @token before gap lexeme text kind value ts hgap hlexeme hrest hts =>
      obtain ⟨rfl, rfl⟩ := List.cons.inj hall
      obtain ⟨front, rest, rfl, hopening, hothers⟩ := ih hts
      refine ⟨gap ++ (lexeme ++ front), rest, by simp, .cons hgap hlexeme hrest hopening, ?_⟩
      simpa using hothers

end Stratagem
