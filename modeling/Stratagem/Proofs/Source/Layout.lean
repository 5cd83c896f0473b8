import Stratagem.Proofs.Source.Outcome
import Stratagem.Proofs.Token.Layout

/-!
# Layout does not matter

Trivia may be put in front of any token of a text, the end marker included. The scanner finds the
same tokens, of which that one and those behind it have moved. The parser looks at no places, so it
reads the same program, or it wants the same thing at the same token.
-/

namespace Stratagem

open Parse Text

/-- The text with `trivia` put in at an offset. -/
def insertAt (src : String) (offset : Nat) (trivia : List Char) : String :=
  String.ofList (src.toList.take offset ++ (trivia ++ src.toList.drop offset))

/-- `d.MovedBehind k n d'`: the reports say the same, and `d'` is `n` characters behind `d` if that
is at the offset `k` or behind it. -/
structure Diagnostic.MovedBehind (k n : Int) (d d' : Diagnostic) : Prop where
  stage : d'.stage = d.stage
  cause : d'.cause = d.cause
  lexeme : d'.lexeme = d.lexeme
  position : d'.position = if d.position < k then d.position else d.position + n

/-- A place in a list cuts the list there. -/
theorem exists_cut {α : Type} {xs : List α} {i : Nat} {x : α} (h : xs[i]? = some x) :
    ∃ ys zs, xs = ys ++ x :: zs ∧ ys.length = i := by
  obtain ⟨hi, hget⟩ := List.getElem?_eq_some_iff.mp h
  refine ⟨xs.take i, xs.drop (i + 1), ?_, List.length_take_of_le (Nat.le_of_lt hi)⟩
  rw [← hget, ← List.drop_eq_getElem_cons hi, List.take_append_drop]

/-- **Trivia in front of a token** of a text leaves the tokens before it and moves the others. -/
theorem scan_insertAt {src : String} {us ws : List Token} {w : Token} {trivia : List Char}
    (hscan : scan src = .ok (us ++ w :: ws)) (htrivia : Trivia trivia) :
    ∃ (k : Nat) (vs : List Token), w.pos = k ∧ k ≤ src.toList.length ∧
      scan (insertAt src k trivia) = .ok (us ++ vs) ∧
      List.Forall₂ (Token.Moved trivia.length) (w :: ws) vs := by
  obtain ⟨front, back, vs, htext, hpos, hinserted, hmoved⟩ :=
    (tokenization_of_scan hscan).insert htrivia
  refine ⟨front.length, vs, hpos, by simp [htext], Tokenization.scan_eq ?_, hmoved⟩
  rw [insertAt, String.toList_ofList, htext, List.take_left, List.drop_left]
  exact hinserted

/-- The tokens of a text that stand before a token have smaller offsets, the others have not. -/
theorem pos_around {src : String} {us ws : List Token} {w : Token}
    (hscan : scan src = .ok (us ++ w :: ws)) :
    (∀ t ∈ us, t.pos < w.pos) ∧ ∀ t ∈ w :: ws, w.pos ≤ t.pos := by
  have hsorted := (tokenization_of_scan hscan).sorted
  rw [List.pairwise_append, List.pairwise_cons] at hsorted
  obtain ⟨-, ⟨hfirst, -⟩, hcross⟩ := hsorted
  refine ⟨fun t ht => hcross t ht w List.mem_cons_self, fun t ht => ?_⟩
  rcases List.mem_cons.mp ht with rfl | ht
  · exact Int.le_refl _
  · exact Int.le_of_lt (hfirst t ht)

/-- `t.MovedBehind k n u`: the tokens are spelled alike, and `u` is `n` characters behind `t` if that
is at the offset `k` or behind it. -/
def Token.MovedBehind (k n : Int) (t u : Token) : Prop :=
  u.lexeme = t.lexeme ∧ u.pos = if t.pos < k then t.pos else t.pos + n

/-- The tokens before an offset stay, and the others have moved. -/
theorem upToEnd_of_moved {us ws vs : List Token} {k n : Int} (hbefore : ∀ t ∈ us, t.pos < k)
    (hbehind : ∀ t ∈ ws, k ≤ t.pos) (hmoved : List.Forall₂ (Token.Moved n) ws vs)
    (hend : ∃ t ∈ us ++ ws, t.kind = .eof) :
    UpToEnd (Token.MovedBehind k n) (us ++ ws) (us ++ vs) := by
  refine .of_forall₂ (List.rel_append ?_ ?_) hend
  · exact List.forall₂_same.mpr fun t ht => ⟨⟨rfl, by rw [if_pos (hbefore t ht)]⟩, rfl⟩
  · have hboth := (List.forall₂_and_left _ _).mpr ⟨hbehind, hmoved⟩
    refine hboth.imp fun t u htu => ?_
    obtain ⟨hle, hword, hpos⟩ := htu
    exact ⟨⟨Token.lexeme_of_word hword, by rw [if_neg (Int.not_lt.mpr hle), hpos]⟩, hword.symm⟩

/-- What becomes of a text is the same for lists of tokens that correspond. -/
theorem parseText_of_upToEnd {src src' : String} {ts us : List Token} {k n : Int}
    (hscan : scan src = .ok ts) (hscan' : scan src' = .ok us)
    (h : UpToEnd (Token.MovedBehind k n) ts us) :
    (∃ p, parseText src = .ok p ∧ parseText src' = .ok p) ∨
    ∃ d d', parseText src = .error (.parse (.problem d)) ∧
      parseText src' = .error (.parse (.problem d')) ∧ d.MovedBehind k n d' := by
  rcases parse_parallel h with ⟨p, hp, hp'⟩ | ⟨f, g, hf, hg, hfault⟩
  · exact .inl ⟨p, parseText_of_parse_ok hscan hp, parseText_of_parse_ok hscan' hp'⟩
  · right
    cases hfault with
    | problem what hmoved =>
      refine ⟨_, _, parseText_of_parse_error hscan hf, parseText_of_parse_error hscan' hg, ?_⟩
      exact ⟨rfl, rfl, hmoved.1, hmoved.2⟩
    | unknownOperator lexeme =>
      -- the operators of a text are spelled as they should be
      rcases parse_cases_of_scan hscan with ⟨p, hp, -⟩ | ⟨t, -, what, hproblem⟩
      · rw [hf] at hp
        simp at hp
      · rw [hf] at hproblem
        simp at hproblem

/-- **Layout does not matter.** With trivia in front of a token of a text, at the offset of that
token, the scan has the same tokens, that one and those behind it moved by the length of the trivia.
The text is parsed to the same program, or both texts have the same syntax problem, moved if it is
at that token or behind it. -/
theorem layout_insensitive {src : String} {ts : List Token} {i : Nat} {w : Token}
    {trivia : List Char} (hscan : scan src = .ok ts) (hw : ts[i]? = some w)
    (htrivia : Trivia trivia) :
    ∃ k : Nat, w.pos = k ∧ k ≤ src.toList.length ∧
      (∃ us, scan (insertAt src k trivia) = .ok us ∧ us.take i = ts.take i ∧
        List.Forall₂ (Token.Moved trivia.length) (ts.drop i) (us.drop i)) ∧
      ((∃ p, parseText src = .ok p ∧ parseText (insertAt src k trivia) = .ok p) ∨
        ∃ d d', parseText src = .error (.parse (.problem d)) ∧
          parseText (insertAt src k trivia) = .error (.parse (.problem d')) ∧
          d.MovedBehind k trivia.length d') := by
  obtain ⟨us, ws, rfl, rfl⟩ := exists_cut hw
  obtain ⟨k, vs, hpos, hle, hscan', hmoved⟩ := scan_insertAt hscan htrivia
  obtain ⟨hbefore, hbehind⟩ := pos_around hscan
  refine ⟨k, hpos, hle, ⟨us ++ vs, hscan', by rw [List.take_left, List.take_left], ?_⟩, ?_⟩
  · rwa [List.drop_left, List.drop_left]
  · rw [hpos] at hbefore hbehind
    have hend := exists_end_of_scan hscan
    exact parseText_of_upToEnd hscan hscan' (upToEnd_of_moved hbefore hbehind hmoved hend)

/-- The tokens of `move up`. -/
def moveTokens : List Token := [
    { kind := .move, lexeme := "move" }, { kind := .up, lexeme := "up", pos := 5, column := 6 },
    { kind := .eof, lexeme := "", pos := 7, column := 8 }]

/-- A comment between the words of a move. -/
theorem move_comment_up :
    parseText (insertAt "move up" 5 "# ahead\n ".toList) = .ok [.move (some .up)] := by
  have hscan : scan "move up" = .ok moveTokens := by cbv
  have hparse : parseText "move up" = .ok [.move (some .up)] := by cbv
  have hup : moveTokens[1]? = some { kind := .up, lexeme := "up", pos := 5, column := 6 } := rfl
  have hcomment : Trivia ('#' :: (" ahead".toList ++ '\n' :: [' '])) :=
    .comment (by decide) (.blank (by decide) .empty)
  obtain ⟨k, hk, -, -, hsame⟩ := layout_insensitive hscan hup hcomment
  have hfive : (5 : Int) = k := hk
  obtain rfl : 5 = k := by omega
  rcases hsame with ⟨p, hp, hp'⟩ | ⟨d, d', hd, -⟩
  · rw [hparse] at hp
    rw [← Except.ok.inj hp] at hp'
    exact hp'
  · rw [hparse] at hd
    simp at hd

end Stratagem
