import Stratagem.Proofs.Grammar.Exact
import Stratagem.Proofs.Parse.Parallel
import Stratagem.Proofs.Token.Layout

/-!
# Texts one behind the other

A text that stands behind another one on a line of its own keeps its tokens, and so does the text in
front of it. The line feed between them ends the last lexeme and the last comment of the first text,
so what stands between the last lexeme of the one and the first lexeme of the other is one gap
(`Tokenization.join`).

What the tokens of a text spell depends on their words alone (`Whole.of_words`), so a text spells the
same program wherever it stands.
-/

namespace Stratagem

open Text Parse Grammar

/-! ## Joining texts -/

/-- **Two texts with a line feed between them** have the tokens of the one and then the tokens of the
other. -/
theorem Tokenization.join {before text text' : List Char} {us ws : List Token} {e : Token}
    (h : Tokenization before text (us ++ [e]))
    (hws : Tokenization (before ++ (text ++ ['\n'])) text' ws) :
    Tokenization before (text ++ '\n' :: text') (us ++ ws) := by
  obtain ⟨front, gap, rfl, hopening, hend⟩ := h.split (List.cons_ne_nil e [])
  have htrivia : Trivia (gap ++ ['\n']) := by
    cases hend with
    | finish hgap => exact hgap.trivia_of_end rfl
    | token _ _ _ hnone => nomatch hnone
  -- the last lexeme is followed by what followed it before, or by the line feed
  have hopening' : Opening before front (gap ++ ['\n'] ++ text') us := by
    refine hopening.congr fun lexeme hlexeme => ?_
    cases gap with
    | nil => exact unextended_blank isBlank_newline lexeme text'
    | cons => exact hlexeme
  have hws' : Tokenization (before ++ front ++ (gap ++ ['\n'])) text' ws := by
    simpa using hws
  have hwhole := hopening'.append (hws'.behind_gap (htrivia.gap text'))
  simpa using hwhole

/-! ## Texts in another place -/

/-- **Tokens that say the same spell the same program.** -/
theorem Grammar.Whole.of_words {us vs : List Token} {p : Program} (h : Whole us p)
    (hus : ∀ t ∈ us, t.Genuine) (hvs : ∀ t ∈ vs, t.Genuine)
    (hwords : List.Forall₂ (fun t u => t.word = u.word) us vs) : Whole vs p := by
  have hparse := h.parse (fun t ht => (hus t ht).operatorSpelled) (e := endOfInput) rfl
  -- the parser reads both lists alike, so it derives the program from both
  have hsame : UpToEnd (fun _ _ => True) (us ++ [endOfInput]) (vs ++ [endOfInput]) := by
    refine .of_forall₂ (List.rel_append ?_ (.cons ⟨trivial, rfl⟩ .nil)) ⟨endOfInput, by simp, rfl⟩
    exact hwords.imp fun _ _ hword => ⟨trivial, hword⟩
  rcases parse_parallel hsame with ⟨q, hq, hq'⟩ | ⟨f, g, hf, -, -⟩
  · rw [hparse] at hq
    obtain rfl := Except.ok.inj hq
    exact whole_of_parse (fun t ht => (hvs t ht).kind_ne_eof)
      (fun t ht => (hvs t ht).operatorSpelled) rfl hq'
  · rw [hparse] at hf
    simp at hf

/-- **A text spells the same program wherever it stands.** -/
theorem Tokenization.whole_shift {before text : List Char} {us : List Token} {e : Token}
    {p : Program} (h : Tokenization before text (us ++ [e])) (hp : Whole us p)
    (before' : List Char) :
    ∃ vs e', Tokenization before' text (vs ++ [e']) ∧ Whole vs p := by
  obtain ⟨ws, hws, hmoved⟩ := h.shift before'
  obtain ⟨us', hus', hgenuine⟩ := h.genuine
  obtain ⟨rfl, -⟩ := List.append_inj' hus' rfl
  obtain ⟨vs, rfl, hgenuine'⟩ := hws.genuine
  have hboth := List.forall₂_take_append _ _ _ hmoved
  have hlength : us.length = vs.length := by simpa using hmoved.length_eq
  rw [List.take_left' hlength] at hboth
  exact ⟨vs, _, hws, hp.of_words hgenuine hgenuine' (hboth.imp fun _ _ htu => htu.word.symm)⟩

end Stratagem
