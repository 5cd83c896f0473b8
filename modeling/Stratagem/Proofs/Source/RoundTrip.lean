import Mathlib
import Stratagem.Proofs.Source.Printed

/-!
# Printing and parsing

A program is printed and parsed back to itself exactly when it is canonical, and whatever was parsed
is canonical. The printer puts no parentheses, so a tree whose operands are looser than their place
is printed to the text of another tree.

`Program.Canonical.parsed_back` is the half that crosses the printer, the scanner and the parser.
The other half is `canonical_of_parseText`: nothing but a canonical tree is ever the result of
parsing.
-/

namespace Stratagem

open Grammar

theorem namesAreTexts_of_wellTyped : ∀ {ns : List Node}, Node.AllWellTyped ns → NamesAreTexts ns
  | [], _, _, hd => absurd hd List.not_mem_nil
  | _ :: _, ⟨hfirst, hothers⟩, d, hd => by
    rcases List.mem_cons.mp hd with rfl | hd
    · exact hfirst
    · exact namesAreTexts_of_wellTyped hothers d hd

mutual

/-- A well-typed node has a source text. -/
theorem exists_source : (n : Node) → n.WellTyped → ∃ text, n.source = .ok text
  | .assign name value, ⟨_, hvalue⟩ => by
    obtain ⟨text, hsource⟩ := exists_source value hvalue
    exact ⟨_, source_assign name hsource⟩
  | .done, _ => ⟨_, rfl⟩
  | .move (some d), _ => ⟨_, rfl⟩
  | .shoot (some d) expenditure, ⟨_, hexpenditure⟩ => by
    obtain ⟨text, hsource⟩ := exists_source expenditure hexpenditure
    exact ⟨_, source_shoot d hsource⟩
  | .block [], _ => ⟨_, rfl⟩
  | .block (n :: ns), h => by
    have hns : Node.AllWellTyped (n :: ns) := h
    obtain ⟨parts, hsources⟩ := exists_sources (n :: ns) hns
    exact ⟨_, source_block hsources (namesAreTexts_of_wellTyped hns)⟩
  | .ifElse condition thenBranch elseBranch, ⟨hcondition, hthen, helse⟩ => by
    obtain ⟨text, hsource⟩ := exists_source condition hcondition
    obtain ⟨text', hsource'⟩ := exists_source thenBranch hthen
    obtain ⟨text'', hsource''⟩ := exists_source elseBranch helse
    exact ⟨_, source_conditional hsource hsource' hsource''⟩
  | .whileLoop condition body, ⟨hcondition, hbody⟩ => by
    obtain ⟨text, hsource⟩ := exists_source condition hcondition
    obtain ⟨text', hsource'⟩ := exists_source body hbody
    exact ⟨_, source_loop hsource hsource'⟩
  | .number _, _ => ⟨_, rfl⟩
  | .variable _, _ => ⟨_, rfl⟩
  | .binary op left right, ⟨hleft, hright⟩ => by
    obtain ⟨text, hsource⟩ := exists_source left hleft
    obtain ⟨text', hsource'⟩ := exists_source right hright
    exact ⟨_, source_binary op hsource hsource'⟩
  | .paren inner, h => by
    have hinner : inner.WellTyped := h
    obtain ⟨text, hsource⟩ := exists_source inner hinner
    exact ⟨_, source_paren hsource⟩
  | .info _, _ => ⟨_, rfl⟩

theorem exists_sources : (ns : List Node) → Node.AllWellTyped ns →
    ∃ parts, Node.sources ns = .ok parts
  | [], _ => ⟨_, rfl⟩
  | n :: ns, ⟨hn, hns⟩ => by
    obtain ⟨text, hsource⟩ := exists_source n hn
    obtain ⟨texts, hsources⟩ := exists_sources ns hns
    exact ⟨_, sources_cons hsource hsources⟩

end

/-- The statements of a program are printed one below the other. -/
theorem source_program {p : Program} {parts : List String} (h : Node.sources p = .ok parts)
    (hnames : NamesAreTexts p) : p.source = .ok ("\n".intercalate parts) := by
  rw [Program.source, h]
  exact joinParts_eq "\n" parts hnames

/-- **A canonical program is printed to plain tokens that spell it.** -/
theorem Program.Canonical.printed {p : Program} (h : p.Canonical) :
    ∃ text vs e, p.source = .ok text ∧ scan text = .ok (vs ++ [e]) ∧ Whole vs p ∧
      e.kind = Token.Kind.eof ∧ ∀ t ∈ vs, t.Plain := by
  obtain ⟨hne, hp⟩ := h
  obtain ⟨parts, hsources, hwrites⟩ := printed_statements p hp hne
  obtain ⟨vs, e, hvs, hplain, he, hscan⟩ := (hwrites "\n" '\n' rfl (by decide)).scanned
  have hsource := source_program hsources (namesAreTexts_of_canonical hp)
  exact ⟨_, vs, e, hsource, hscan, ⟨hne, hvs⟩, he, hplain⟩

/-- **A canonical program is printed and parsed back to itself.** -/
theorem Program.Canonical.parsed_back {p : Program} (h : p.Canonical) :
    ∃ text, p.source = .ok text ∧ parseText text = .ok p := by
  obtain ⟨text, vs, e, hsource, hscan, hwhole, he, -⟩ := h.printed
  obtain ⟨us, e', hsplit, -, hgenuine⟩ := scan_eq_append_end hscan
  obtain ⟨rfl, -⟩ := List.append_inj' hsplit rfl
  have hparse := hwhole.parse (fun t ht => (hgenuine t ht).operatorSpelled) he
  exact ⟨text, hsource, parseText_eq_ok.mpr ⟨_, hscan, hparse⟩⟩

/-- **Printing and parsing.** A well-typed program has a source text, and that is parsed back to the
program if and only if it is canonical. Whatever a text is parsed to is canonical, so printing it
and parsing it again gives it back. -/
theorem parseText_source_iff_canonical :
    (∀ p : Program, Node.AllWellTyped p →
      ∃ text, p.source = .ok text ∧ (parseText text = .ok p ↔ p.Canonical)) ∧
    (∀ (src : String) (p : Program), parseText src = .ok p →
      p.Canonical ∧ ∃ text, p.source = .ok text ∧ parseText text = .ok p) := by
  constructor
  · intro p hp
    obtain ⟨parts, hsources⟩ := exists_sources p hp
    have hsource := source_program hsources (namesAreTexts_of_wellTyped hp)
    refine ⟨_, hsource, canonical_of_parseText, fun hcanonical => ?_⟩
    obtain ⟨text, htext, hparse⟩ := hcanonical.parsed_back
    rw [hsource] at htext
    obtain rfl := Except.ok.inj htext
    exact hparse
  · intro src p hparse
    have hcanonical := canonical_of_parseText hparse
    exact ⟨hcanonical, hcanonical.parsed_back⟩

/-- `x = 1 - (2 - 3)`, without parentheses in the tree. -/
def looseDifference : Program :=
  [.assign (.text "x") (.binary .sub (.number (.int 1))
    (.binary .sub (.number (.int 2)) (.number (.int 3))))]

/-- The tree of a difference with a difference on its right is printed to the text of another one,
and a move is parsed back from what it is printed to. -/
theorem looseDifference_not_parsed_back :
    (∃ text, looseDifference.source = .ok text ∧ parseText text ≠ .ok looseDifference) ∧
    ∃ text, Program.source [.move (some .up)] = .ok text ∧
      parseText text = .ok [.move (some .up)] := by
  constructor
  · have htyped : Node.AllWellTyped looseDifference :=
      ⟨⟨⟨_, rfl⟩, ⟨_, rfl⟩, ⟨_, rfl⟩, _, rfl⟩, trivial⟩
    obtain ⟨text, hsource, hiff⟩ := parseText_source_iff_canonical.1 looseDifference htyped
    refine ⟨text, hsource, fun hparse => ?_⟩
    -- the right operand is a difference itself
    obtain ⟨-, ⟨-, -, -, hadmits⟩, -⟩ := hiff.mp hparse
    exact hadmits .sub rfl (by decide)
  · have hparse : parseText "move # ahead\n up" = .ok [.move (some .up)] := by cbv
    exact (parseText_source_iff_canonical.2 _ _ hparse).2

end Stratagem
