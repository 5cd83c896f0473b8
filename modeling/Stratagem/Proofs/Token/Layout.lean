import Mathlib.Data.List.Forall2
import Stratagem.Proofs.Text.Trivia
import Stratagem.Proofs.Token.Opening
import Stratagem.Proofs.Token.Word

/-!
# Layout

Trivia put in front of a token moves that token and the ones behind it, and does nothing else. The
tokens before it stay where they are (`Opening.congr`), the gap in front of the token takes the
trivia in (`Gap.append_trivia`), and a scan that starts further on finds the same words further on
(`Tokenization.shift`). `Tokenization.insert` puts the three together.
-/

namespace Stratagem

open Text Text.Cursor

/-- `Token.Moved n t u`: the tokens say the same, and `u` stands `n` characters behind `t`. -/
structure Token.Moved (n : Int) (t u : Token) : Prop where
  word : u.word = t.word
  pos : u.pos = t.pos + n

theorem moved_tokenAfter {before before' : List Char} {n : Int}
    (h : (before'.length : Int) = before.length + n) (kind : Token.Kind) (text : List Char)
    (value : Option Int) :
    Token.Moved n (tokenAfter before kind text value) (tokenAfter before' kind text value) :=
  ⟨rfl, h⟩

/-! ## The order of the tokens -/

/-- The tokens of a text stand in it. -/
theorem Tokenization.le_pos {before text : List Char} {ts : List Token}
    (h : Tokenization before text ts) : ∀ t ∈ ts, (before.length : Int) ≤ t.pos := by
  induction h with
  | @finish before gap _ =>
    intro t ht
    obtain rfl := List.mem_singleton.mp ht
    show (before.length : Int) ≤ ((before ++ gap).length : Int)
    simp only [List.length_append]
    omega
  | @token before gap lexeme rest kind value ts _ _ _ _ ih =>
    intro t ht
    rcases List.mem_cons.mp ht with rfl | ht
    · show (before.length : Int) ≤ ((before ++ gap).length : Int)
      simp only [List.length_append]
      omega
    · have hle := ih t ht
      simp only [List.length_append] at hle
      omega

/-- **The tokens of a text stand one behind the other.** -/
theorem Tokenization.sorted {before text : List Char} {ts : List Token}
    (h : Tokenization before text ts) : ts.Pairwise fun t u => t.pos < u.pos := by
  induction h with
  | finish => exact List.pairwise_singleton _ _
  | @token before gap lexeme rest kind value ts _ hlexeme _ hts ih =>
    refine List.pairwise_cons.mpr ⟨fun u hu => ?_, ih⟩
    have hle := hts.le_pos u hu
    have hpos : 0 < lexeme.length := List.length_pos_iff.mpr hlexeme.ne_nil
    show ((before ++ gap).length : Int) < u.pos
    simp only [List.length_append] at hle ⊢
    omega

/-! ## Moving a text -/

/-- **A text has the same tokens wherever it stands**, moved along with it. -/
theorem Tokenization.shift {before text : List Char} {ts : List Token}
    (h : Tokenization before text ts) (before' : List Char) :
    ∃ us, Tokenization before' text us ∧
      List.Forall₂ (Token.Moved (before'.length - before.length)) ts us := by
  induction h generalizing before' with
  | @finish before gap hgap =>
    refine ⟨_, .finish hgap, .cons (moved_tokenAfter ?_ _ _ _) .nil⟩
    simp only [List.length_append]
    omega
  | @token before gap lexeme rest kind value ts hgap hlexeme hrest _ ih =>
    obtain ⟨us, hus, hmoved⟩ := ih (before' ++ gap ++ lexeme)
    have hdistance : (((before' ++ gap ++ lexeme).length : Int) - (before ++ gap ++ lexeme).length)
        = before'.length - before.length := by
      simp only [List.length_append]
      omega
    rw [hdistance] at hmoved
    refine ⟨_, .token hgap hlexeme hrest hus, .cons (moved_tokenAfter ?_ _ _ _) hmoved⟩
    simp only [List.length_append]
    omega

/-! ## Trivia in front of a token -/

/-- Trivia extends no lexeme. -/
theorem Text.Trivia.unextended {trivia lexeme rest : List Char} (h : Trivia trivia)
    (hrest : Unextended lexeme rest) : Unextended lexeme (trivia ++ rest) := by
  cases trivia with
  | nil => exact hrest
  | cons d trivia =>
    have hbreaks : Breaks (d :: trivia ++ rest) := by
      intro d' hd
      obtain rfl : d = d' := by simpa using hd
      rcases h.head d rfl with hblank | rfl
      · exact continuesWord_eq_false_of_isBlank hblank
      · decide
    exact hbreaks.unextended lexeme

/-- Trivia in front of the first token moves the tokens of a text. -/
theorem Tokenization.insert_first {before text : List Char} {w : Token} {ws : List Token}
    (h : Tokenization before text (w :: ws)) {trivia : List Char} (htrivia : Trivia trivia) :
    ∃ gap back vs, text = gap ++ back ∧ w.pos = (before ++ gap).length ∧
      Tokenization before (gap ++ (trivia ++ back)) vs ∧
      List.Forall₂ (Token.Moved trivia.length) (w :: ws) vs := by
  cases h with
  | finish hgap =>
    have hvs : Tokenization before (text ++ trivia) [endAfter (before ++ (text ++ trivia))] :=
      .finish (hgap.append_trivia htrivia)
    refine ⟨text, [], _, by simp, rfl, by rwa [List.append_nil], ?_⟩
    refine .cons (moved_tokenAfter ?_ _ _ _) .nil
    simp only [List.length_append]
    omega
  | @token _ gap lexeme rest kind value ts hgap hlexeme hrest hts =>
    obtain ⟨us, hus, hmoved⟩ := hts.shift (before ++ (gap ++ trivia) ++ lexeme)
    have hdistance : (((before ++ (gap ++ trivia) ++ lexeme).length : Int)
        - (before ++ gap ++ lexeme).length) = trivia.length := by
      simp only [List.length_append]
      omega
    rw [hdistance] at hmoved
    have hvs := Tokenization.token (hgap.append_trivia htrivia) hlexeme hrest hus
    rw [List.append_assoc] at hvs
    refine ⟨gap, lexeme ++ rest, _, rfl, rfl, hvs, ?_⟩
    refine .cons (moved_tokenAfter ?_ _ _ _) hmoved
    simp only [List.length_append]
    omega

/-- **Trivia in front of a token** moves that token and those behind it, and leaves the others as
they are. -/
theorem Tokenization.insert {before text : List Char} {us ws : List Token} {w : Token}
    (h : Tokenization before text (us ++ w :: ws)) {trivia : List Char}
    (htrivia : Trivia trivia) :
    ∃ front back vs, text = front ++ back ∧ w.pos = (before ++ front).length ∧
      Tokenization before (front ++ (trivia ++ back)) (us ++ vs) ∧
      List.Forall₂ (Token.Moved trivia.length) (w :: ws) vs := by
  obtain ⟨front, rest, rfl, hopening, hws⟩ := h.split (List.cons_ne_nil w ws)
  obtain ⟨gap, back, vs, rfl, hpos, hvs, hmoved⟩ := hws.insert_first htrivia
  refine ⟨front ++ gap, back, vs, by simp, by rw [hpos, List.append_assoc], ?_, hmoved⟩
  -- the last lexeme before the gap is not extended by the trivia either
  have hopening' : Opening before front (gap ++ (trivia ++ back)) us := by
    refine hopening.congr fun lexeme hlexeme => ?_
    cases gap with
    | nil => exact htrivia.unextended hlexeme
    | cons => exact hlexeme
  have hwhole := hopening'.append hvs
  rwa [← List.append_assoc] at hwhole

end Stratagem
