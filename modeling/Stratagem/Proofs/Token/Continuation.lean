import Stratagem.Proofs.Token.Opening

/-!
# Going on with a text

Every kind of token but the end marker has a spelling, so behind any tokens of a text there may
stand tokens of any kinds. `Tokenization.goesOn` says that a text can be cut off after any of its
tokens and be continued such that the tokens before the cut stay what they are, places included.

A blank behind the cut keeps the last token from being extended, so what stands before the cut is
an opening of the new text as well (`Opening.congr`).
-/

namespace Stratagem

open Text Text.Cursor

/-- Every kind of token but the end marker is spelled by some text. -/
theorem exists_lexeme {kind : Token.Kind} (h : kind ≠ .eof) :
    ∃ text value, Lexeme text kind value := by
  have hkind : kind = .number ∨ kind = .ident ∨ (∃ word, (word, kind) ∈ Token.Kind.keywords) ∨
      ∃ c, (c, kind) ∈ Token.Kind.symbols := by
    have htable : kind = .number ∨ kind = .ident ∨ kind ∈ Token.Kind.keywords.map Prod.snd ∨
        kind ∈ Token.Kind.symbols.map Prod.snd := by
      cases kind <;>
        first | exact absurd rfl h | simp [Token.Kind.keywords, Token.Kind.symbols]
    simpa using htable
  rcases hkind with rfl | rfl | ⟨word, hword⟩ | ⟨c, hc⟩
  · exact ⟨_, _, lexeme_natText (Nat.zero_le maxNumber)⟩
  · have hx : isWord ['x'] = true := by decide
    exact ⟨_, _, lexeme_of_isWord hx⟩
  · exact ⟨_, _, lexeme_keyword hword⟩
  · exact ⟨_, _, lexeme_symbol hc⟩

/-! ## Cutting and going on -/

/-- **A text can be cut off after any of its tokens** and go on behind a blank: the tokens before
the cut stay as they are. -/
theorem Tokenization.cut {before text : List Char} {us ws : List Token}
    (h : Tokenization before text (us ++ ws)) (hws : ws ≠ []) :
    ∃ front, front <+: text ∧ ∀ fill vs, Tokenization (before ++ front) (' ' :: fill) vs →
      Tokenization before (front ++ ' ' :: fill) (us ++ vs) := by
  obtain ⟨front, rest, rfl, hopening, -⟩ := h.split hws
  refine ⟨front, List.prefix_append front rest, fun fill vs hvs => ?_⟩
  have hblank : Opening before front (' ' :: fill) us :=
    hopening.congr fun lexeme _ => unextended_blank isBlank_space lexeme fill
  exact hblank.append hvs

/-- A blank goes on to tokens of any kinds but the end marker's. -/
theorem exists_tokenization {kinds : List Token.Kind} (h : Token.Kind.eof ∉ kinds)
    (before : List Char) :
    ∃ fill vs e, vs.map Token.kind = kinds ∧ e.kind = Token.Kind.eof ∧
      Tokenization before (' ' :: fill) (vs ++ [e]) := by
  induction kinds generalizing before with
  | nil =>
    exact ⟨[], [], _, rfl, rfl, .finish (.blank isBlank_space .empty)⟩
  | cons kind kinds ih =>
    rw [List.mem_cons, not_or] at h
    obtain ⟨lexeme, value, hlexeme⟩ := exists_lexeme (Ne.symm h.1)
    obtain ⟨fill, vs, e, hkinds, he, hvs⟩ := ih h.2 (before ++ [' '] ++ lexeme)
    refine ⟨lexeme ++ ' ' :: fill, _ :: vs, e, ?_, he,
      .token (.blank isBlank_space .empty) hlexeme (unextended_blank isBlank_space lexeme fill) hvs⟩
    rw [List.map_cons, hkinds]
    rfl

/-- **Any tokens of a text go on with tokens of any kinds** to the tokens of some text. -/
theorem Tokenization.goesOn {src : String} {us ws : List Token}
    (h : Tokenization [] src.toList (us ++ ws)) (hws : ws ≠ []) {kinds : List Token.Kind}
    (hkinds : Token.Kind.eof ∉ kinds) :
    ∃ src' vs e, vs.map Token.kind = kinds ∧ e.kind = Token.Kind.eof ∧
      scan src' = .ok (us ++ vs ++ [e]) := by
  obtain ⟨front, -, hfront⟩ := h.cut hws
  obtain ⟨fill, vs, e, hvs, he, htokens⟩ := exists_tokenization hkinds ([] ++ front)
  refine ⟨String.ofList (front ++ ' ' :: fill), vs, e, hvs, he, Tokenization.scan_eq ?_⟩
  rw [String.toList_ofList, List.append_assoc]
  exact hfront fill (vs ++ [e]) htokens

end Stratagem
