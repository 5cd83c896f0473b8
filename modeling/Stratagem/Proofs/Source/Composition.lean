import Mathlib
import Stratagem.Proofs.Source.Canonical
import Stratagem.Proofs.Token.Joined

/-!
# Programs one behind the other

Nothing marks the end of a statement, and none is needed: no statement goes on with what another one
starts with. So texts can be put together line below line, and their programs are put together the
same way; a program between braces is a block; and a text whose program is cut in two can be cut
there itself.

`Spells text p` says that the tokens of a text derive a program, which is what it means to be parsed
to it (`parseText_iff_spells`). The main result puts the derivations together: the grammar is a list
of statements, so it splits wherever the program does (`Statements.split`).
-/

namespace Stratagem

open Text Parse Grammar

/-- `Spells text p`: the tokens of the text derive the program. -/
def Spells (text : List Char) (p : Program) : Prop :=
  ∃ us e, Tokenization [] text (us ++ [e]) ∧ Whole us p

/-- **A text is parsed to the program that it spells.** -/
theorem parseText_iff_spells {src : String} {p : Program} :
    parseText src = .ok p ↔ Spells src.toList p := by
  constructor
  · intro h
    obtain ⟨ts, hscan, hparse⟩ := parseText_eq_ok.mp h
    obtain ⟨us, e, rfl, he, hgenuine⟩ := scan_eq_append_end hscan
    have hwhole := whole_of_parse (fun t ht => (hgenuine t ht).kind_ne_eof)
      (fun t ht => (hgenuine t ht).operatorSpelled) he hparse
    exact ⟨us, e, tokenization_of_scan hscan, hwhole⟩
  · intro h
    obtain ⟨us, e, htokens, hwhole⟩ := h
    obtain ⟨us', hsplit, hgenuine⟩ := htokens.genuine
    obtain ⟨rfl, he⟩ := List.append_inj' hsplit rfl
    obtain rfl := List.singleton_inj.mp he
    have hend : (endAfter ([] ++ src.toList)).kind = .eof := rfl
    have hparse := hwhole.parse (fun t ht => (hgenuine t ht).operatorSpelled) hend
    exact parseText_of_parse_ok htokens.scan_eq hparse

namespace Spells

variable {text text' : List Char} {p q : Program}

/-- **Two texts, line below line, spell the two programs one after the other.** -/
theorem join (h : Spells text p) (h' : Spells text' q) :
    Spells (text ++ '\n' :: text') (p ++ q) := by
  obtain ⟨us, e, hus, hp⟩ := h
  obtain ⟨vs, e', hvs, hq⟩ := h'
  obtain ⟨ws, e'', hws, hq'⟩ := hvs.whole_shift hq ([] ++ (text ++ ['\n']))
  have hjoined := hus.join hws
  rw [← List.append_assoc] at hjoined
  exact ⟨us ++ ws, e'', hjoined, by simp [hp.1], hp.2.append hq'.2⟩

/-- **A text between braces spells a block.** -/
theorem braced (h : Spells text p) :
    Spells ('{' :: '\n' :: (text ++ ['\n', '}'])) [.block p] := by
  obtain ⟨us, e, hus, hp⟩ := h
  obtain ⟨vs, e', hvs, hp'⟩ := hus.whole_shift hp (['{'] ++ ['\n'])
  have hopen : ('{', Token.Kind.lbrace) ∈ Token.Kind.symbols := by decide
  have hclose : ('}', Token.Kind.rbrace) ∈ Token.Kind.symbols := by decide
  obtain ⟨closing, e'', hclosing, hlast⟩ : ∃ t e, t.kind = .rbrace ∧
      Tokenization (['{'] ++ ['\n'] ++ (text ++ ['\n'])) ['}'] [t, e] :=
    ⟨_, _, rfl, .symbol hclose (.finish .empty)⟩
  have hinside := (hvs.join hlast).behind_gap (.blank isBlank_newline .empty)
  obtain ⟨opening, hopening, hwhole⟩ : ∃ t, t.kind = .lbrace ∧
      Tokenization [] ('{' :: '\n' :: (text ++ ['\n', '}'])) (t :: (vs ++ [closing, e''])) :=
    ⟨_, rfl, .symbol hopen hinside⟩
  have hblock := Statements.cons (.block hopening hp'.2 hclosing) .nil
  refine ⟨opening :: vs ++ [closing], e'', by simpa using hwhole, List.cons_ne_nil _ _, ?_⟩
  rwa [List.append_nil] at hblock

/-- **Where a program is cut in two, so is its text.** -/
theorem cut (h : Spells text (p ++ q)) (hp : p ≠ []) (hq : q ≠ []) :
    ∃ front rest, text = front ++ rest ∧ Spells front p ∧ Spells rest q := by
  obtain ⟨ts, e, hts, -, hstatements⟩ := h
  obtain ⟨us, vs, rfl, hus, hvs⟩ := hstatements.split
  rw [List.append_assoc] at hts
  obtain ⟨front, rest, rfl, hopening, hrest⟩ := hts.split (by simp)
  -- nothing behind the last token of `p` is needed to know where that token ends
  have hfront : Tokenization [] (front ++ []) (us ++ [_]) :=
    (hopening.congr fun lexeme _ c _ d hd => absurd hd (by simp)).append (.finish .empty)
  rw [List.append_nil] at hfront
  obtain ⟨ws, e', hws, hq'⟩ := hrest.whole_shift ⟨hq, hvs⟩ []
  exact ⟨front, rest, rfl, ⟨us, _, hfront, hp, hus⟩, ⟨ws, e', hws, hq'⟩⟩

end Spells

/-- **Programs are put together by putting texts together.** With a line feed between two texts, their
programs stand one after the other; between braces on lines of their own, a program is a block; and
where a program is cut in two, its text can be cut into texts of the two parts. -/
theorem parseText_composition :
    (∀ a b p q, parseText a = .ok p → parseText b = .ok q →
      parseText (a ++ "\n" ++ b) = .ok (p ++ q)) ∧
    (∀ a p, parseText a = .ok p → parseText ("\x7b\n" ++ a ++ "\n\x7d") = .ok [.block p]) ∧
    ∀ s p q, p ≠ [] → q ≠ [] → parseText s = .ok (p ++ q) →
      ∃ a b, s = a ++ b ∧ parseText a = .ok p ∧ parseText b = .ok q := by
  refine ⟨?_, ?_, ?_⟩
  · intro a b p q ha hb
    rw [parseText_iff_spells] at ha hb ⊢
    simpa using ha.join hb
  · intro a p ha
    rw [parseText_iff_spells] at ha ⊢
    simpa using ha.braced
  · intro s p q hp hq hs
    obtain ⟨front, rest, htext, hfront, hrest⟩ := (parseText_iff_spells.mp hs).cut hp hq
    refine ⟨String.ofList front, String.ofList rest, ?_, ?_, ?_⟩
    · rw [← String.ofList_append, ← htext, String.ofList_toList]
    · rwa [parseText_iff_spells, String.toList_ofList]
    · rwa [parseText_iff_spells, String.toList_ofList]

/-- A comment at the end of the first text ends where the second one starts, and what stands behind
the body of a loop is a statement of its own. -/
theorem parseText_two_lines :
    parseText ("x = 1 # one" ++ "\n" ++ "shoot up x") =
      .ok [.assign (.text "x") (.number (.int 1)), .shoot (some .up) (.variable (.text "x"))] ∧
    parseText ("\x7b\n" ++ "x = 1 # one" ++ "\n\x7d") =
      .ok [.block [.assign (.text "x") (.number (.int 1))]] ∧
    ∃ a b, "while (1) x = y z = 2" = a ++ b ∧
      parseText a =
        .ok [.whileLoop (.number (.int 1)) (.assign (.text "x") (.variable (.text "y")))] ∧
      parseText b = .ok [.assign (.text "z") (.number (.int 2))] := by
  have hone : parseText "x = 1 # one" = .ok [.assign (.text "x") (.number (.int 1))] := by cbv
  have htwo : parseText "shoot up x" = .ok [.shoot (some .up) (.variable (.text "x"))] := by cbv
  have hboth : parseText "while (1) x = y z = 2" =
      .ok ([.whileLoop (.number (.int 1)) (.assign (.text "x") (.variable (.text "y")))] ++
        [.assign (.text "z") (.number (.int 2))]) := by cbv
  obtain ⟨hjoin, hbraced, hcut⟩ := parseText_composition
  exact ⟨hjoin _ _ _ _ hone htwo, hbraced _ _ hone,
    hcut _ _ _ (List.cons_ne_nil _ _) (List.cons_ne_nil _ _) hboth⟩

end Stratagem
